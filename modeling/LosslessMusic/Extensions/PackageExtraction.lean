import Mathlib.Data.List.Forall2
import LosslessMusic.Extensions.PackageDirectory

/-!
# Packages that are opened and extracted

The entries of an opened package have clean paths with different keys and are not too large.
What an extraction creates are their files, in order, and the directories above them.
-/

namespace LosslessMusic.Extensions.Package

variable {libraries : Libraries}

/-! ## Opening -/

/-- The declared size of what is extracted. -/
def declared (entries : List Entry) : Nat :=
  ((entries.filter fun entry => !entry.directory).map (·.size)).sum

/-- What the loop of `open` knows. -/
structure Inspected (found : Found) : Prop where
  total : found.total = declared found.entries
  bounded : found.total ≤ maxExtracted
  manifest : ∀ index, found.manifest = some index → index < found.entries.length

theorem declared_append (entries : List Entry) (entry : Entry) :
    declared (entries ++ [entry]) = declared entries + if entry.directory then 0 else entry.size := by
  unfold declared
  rw [List.filter_append, List.map_append, List.sum_append]
  cases directory : entry.directory with
  | true => simp [directory]
  | false => simp [directory]

variable {found : Found}

theorem calm_inspect {archive : Archive} {index : Nat} {name : Bytes}
    (bounded : found.total ≤ maxExtracted) : Calm (inspect libraries archive index name found) := by
  unfold inspect
  split
  · exact calm_error _
  · split
    · exact calm_error _
    · refine calm_bind (calm_cleanPath name) fun path _ => ?_
      dsimp only
      split
      · exact calm_ok _
      · refine calm_bind (calm_sub bounded) fun room left => ?_
        obtain ⟨rfl, _⟩ := sub_ok left
        split
        · exact calm_error _
        next fits =>
          refine calm_bind (calm_add ?_) fun _ _ => calm_ok _
          simp only [maxExtracted] at bounded fits
          omega

theorem inspect_spec {archive : Archive} {name : Bytes} {next : Found} (inspected : Inspected found)
    (ended : inspect libraries archive found.entries.length name found = .ok next) :
    Inspected next ∧ ∃ entry, next.entries = found.entries ++ [entry] ∧
      cleanPath libraries name = .ok entry.path := by
  unfold inspect at ended
  split at ended
  · cases ended
  next file _ =>
    split at ended
    · cases ended
    · obtain ⟨path, cleaned, ended⟩ := ok_of_bind ended
      dsimp only at ended
      split at ended
      next directory =>
        cases ended
        refine ⟨⟨?_, inspected.bounded, fun index same => ?_⟩, _, rfl, cleaned⟩
        · rw [declared_append]
          exact inspected.total
        · rw [List.length_append]
          exact Nat.lt_of_lt_of_le (inspected.manifest index same) (Nat.le_add_right _ _)
      next =>
        obtain ⟨room, left, ended⟩ := ok_of_bind ended
        obtain ⟨rfl, _⟩ := sub_ok left
        split at ended
        · cases ended
        next fits =>
          obtain ⟨total, summed, ended⟩ := ok_of_bind ended
          obtain rfl := add_ok summed
          cases ended
          have before := inspected.bounded
          refine ⟨⟨?_, ?_, fun index same => ?_⟩, _, rfl, cleaned⟩
          · rw [declared_append]
            exact congrArg (· + file.size) inspected.total
          · dsimp only
            omega
          · dsimp only at same ⊢
            rw [List.length_append, List.length_singleton]
            split at same
            · cases same
              exact Nat.lt_succ_self _
            · exact Nat.lt_succ_of_lt (inspected.manifest index same)

variable {names : List Bytes}

theorem calm_inspectAll {archive : Archive} (inspected : Inspected found) :
    Calm (inspectAll libraries archive names found.entries.length found) := by
  induction names generalizing found with
  | nil => exact calm_ok _
  | cons name names ih =>
    rw [inspectAll]
    refine calm_bind (calm_inspect inspected.bounded) fun next ended => ?_
    obtain ⟨later, entry, entries, _⟩ := inspect_spec inspected ended
    have length : found.entries.length + 1 = next.entries.length := by
      rw [entries, List.length_append, List.length_singleton]
    rw [length]
    exact ih later

theorem inspectAll_spec {archive : Archive} {last : Found} (inspected : Inspected found)
    (ended : inspectAll libraries archive names found.entries.length found = .ok last) :
    Inspected last ∧ ∃ entries, last.entries = found.entries ++ entries ∧
      List.Forall₂ (fun name entry => cleanPath libraries name = .ok entry.path) names entries := by
  induction names generalizing found with
  | nil =>
    cases ended
    exact ⟨inspected, [], (List.append_nil _).symm, .nil⟩
  | cons name names ih =>
    rw [inspectAll] at ended
    obtain ⟨next, first, ended⟩ := ok_of_bind ended
    obtain ⟨later, entry, entries, cleaned⟩ := inspect_spec inspected first
    have length : found.entries.length + 1 = next.entries.length := by
      rw [entries, List.length_append, List.length_singleton]
    rw [length] at ended
    obtain ⟨sound, rest, all, clean⟩ := ih later ended
    refine ⟨sound, entry :: rest, ?_, .cons cleaned clean⟩
    rw [all, entries, List.append_assoc]
    rfl

theorem inspected_nothing : Inspected ⟨[], 0, none, false⟩ where
  total := rfl
  bounded := Nat.zero_le _
  manifest := nofun

/-- What an opened package is. -/
structure Sound (libraries : Libraries) (entries : List Entry) : Prop where
  few : entries.length ≤ maxEntries
  small : declared entries ≤ maxExtracted
  plain : ∀ entry ∈ entries, entry.path ≠ [] ∧ ∀ part ∈ entry.path, Plain part
  different : (entries.map fun entry => key libraries entry.path).Nodup

variable {μ : Type} {input : File} {archive : Option Archive} {parse : Bytes → Except String μ}

theorem calm_openPackage : Calm (openPackage libraries input archive parse) := by
  unfold openPackage
  refine calm_bind (calm_centralNames input.property) fun names _ => ?_
  cases archive with
  | none => exact calm_error _
  | some archive =>
    dsimp only
    split
    · exact calm_error _
    · refine calm_bind (calm_inspectAll inspected_nothing) fun found ended => ?_
      obtain ⟨inspected, _⟩ := inspectAll_spec inspected_nothing ended
      split
      · exact calm_error _
      next index manifest =>
        split
        · exact calm_error _
        · split
          next nothing =>
            have inside := inspected.manifest index manifest
            rw [List.getElem?_eq_getElem inside] at nothing
            cases nothing
          · split
            · exact calm_error _
            · split
              · exact calm_error _
              · exact calm_error _
              · split
                · exact calm_error _
                · split
                  · exact calm_error _
                  · exact calm_ok _

theorem map_path_eq {paths : List Path} {entries : List Entry}
    (first : List.Forall₂ (fun name path => cleanPath libraries name = .ok path) names paths)
    (second : List.Forall₂ (fun name entry => cleanPath libraries name = .ok entry.path) names
      entries) : entries.map (·.path) = paths := by
  induction first generalizing entries with
  | nil =>
    cases second
    rfl
  | cons clean _ ih =>
    cases second with
    | cons cleaned rest =>
      rw [List.map_cons, ih rest]
      exact congrArg (· :: _) (Except.ok.inj (cleaned.symm.trans clean))

theorem paths_plain {entries : List Entry}
    (clean : List.Forall₂ (fun name entry => cleanPath libraries name = .ok entry.path) names
      entries) : ∀ entry ∈ entries, entry.path ≠ [] ∧ ∀ part ∈ entry.path, Plain part := by
  induction clean with
  | nil => exact nofun
  | cons cleaned _ ih =>
    intro entry member
    rcases List.mem_cons.mp member with rfl | later
    · exact cleanPath_plain cleaned
    · exact ih entry later

theorem openPackage_sound {package : Opened μ}
    (ended : openPackage libraries input archive parse = .ok package) :
    Sound libraries package.entries := by
  unfold openPackage at ended
  obtain ⟨names, named, ended⟩ := ok_of_bind ended
  obtain ⟨_, few, paths, keyed⟩ := centralNames_spec named
  cases archive with
  | none => cases ended
  | some archive =>
    dsimp only at ended
    split at ended
    · cases ended
    · obtain ⟨found, walked, ended⟩ := ok_of_bind ended
      obtain ⟨inspected, entries, all, clean⟩ := inspectAll_spec inspected_nothing walked
      have same : package.entries = entries := by
        rw [← List.nil_append entries]
        refine Eq.trans ?_ all
        split at ended
        · cases ended
        · split at ended
          · cases ended
          · split at ended
            · cases ended
            · split at ended
              · cases ended
              · split at ended
                · cases ended
                · cases ended
                · split at ended
                  · cases ended
                  · split at ended <;> cases ended
                    rfl
      have total : declared entries ≤ maxExtracted := by
        refine Nat.le_trans (Nat.le_of_eq ?_) inspected.bounded
        rw [inspected.total, all]
        exact congrArg declared (List.nil_append entries).symm
      rw [same]
      refine ⟨?_, total, paths_plain clean, ?_⟩
      · rw [← clean.length_eq]
        exact few
      · have keys : entries.map (fun entry => key libraries entry.path) =
            paths.map (key libraries) := by
          rw [← map_path_eq keyed.clean clean, List.map_map]
          rfl
        rw [keys]
        exact keyed.different

end LosslessMusic.Extensions.Package
