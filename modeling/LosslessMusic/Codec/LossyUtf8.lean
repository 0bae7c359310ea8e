import Mathlib.Data.List.Basic

/-!
# Lossy UTF-8

Bytes as a text, with a replacement character for every longest part of a character that
breaks off. The machine keeps the bytes of the character it reads and the ranges of the bytes
that it still owes.
-/

namespace LosslessMusic.Codec.LossyUtf8

/-- A character that is being read. -/
structure Pending where
  /-- Its bytes so far. -/
  taken : List UInt8
  /-- The least and the greatest value of each byte it still owes. -/
  owed : List (UInt8 × UInt8)

/-- Between two characters. -/
def Pending.nothing : Pending := ⟨[], []⟩

/-- The replacement character. -/
def replacement : List UInt8 := [0xEF, 0xBF, 0xBD]

/-- The bytes that a leading byte owes. -/
def owedBy (lead : UInt8) : Option (List (UInt8 × UInt8)) :=
  if 0xC2 ≤ lead ∧ lead ≤ 0xDF then some [(0x80, 0xBF)]
  else if lead = 0xE0 then some [(0xA0, 0xBF), (0x80, 0xBF)]
  else if lead = 0xED then some [(0x80, 0x9F), (0x80, 0xBF)]
  else if 0xE1 ≤ lead ∧ lead ≤ 0xEF then some [(0x80, 0xBF), (0x80, 0xBF)]
  else if lead = 0xF0 then some [(0x90, 0xBF), (0x80, 0xBF), (0x80, 0xBF)]
  else if 0xF1 ≤ lead ∧ lead ≤ 0xF3 then some [(0x80, 0xBF), (0x80, 0xBF), (0x80, 0xBF)]
  else if lead = 0xF4 then some [(0x80, 0x8F), (0x80, 0xBF), (0x80, 0xBF)]
  else none

/-- What a byte between two characters writes at once, and what it begins. -/
def start (byte : UInt8) : List UInt8 × Pending :=
  if byte < 0x80 then ([byte], .nothing)
  else
    match owedBy byte with
    | some owed => ([], ⟨[byte], owed⟩)
    | none => (replacement, .nothing)

/-- What a byte writes, and what is being read after it. -/
def Pending.step (pending : Pending) (byte : UInt8) : List UInt8 × Pending :=
  match pending.owed with
  | [] => start byte
  | (low, high) :: owed =>
    if low ≤ byte ∧ byte ≤ high then
      match owed with
      | [] => (pending.taken ++ [byte], .nothing)
      | next :: owed => ([], ⟨pending.taken ++ [byte], next :: owed⟩)
    else (replacement ++ (start byte).1, (start byte).2)

/-- The text of the bytes behind what is being read. -/
def Pending.text (pending : Pending) : List UInt8 → List UInt8
  | [] => if pending.owed = [] then [] else replacement
  | byte :: rest => (pending.step byte).1 ++ (pending.step byte).2.text rest

/-- `String::from_utf8_lossy`. -/
def fromUtf8Lossy (bytes : List UInt8) : List UInt8 :=
  Pending.nothing.text bytes

/-! ## A text is read back unchanged -/

/-- Reading the bytes of the begun character again leads back to it. -/
def Pending.Reached (pending : Pending) : Prop :=
  ∀ rest, Pending.nothing.text (pending.taken ++ rest) = pending.text rest

theorem reached_nothing : Pending.nothing.Reached :=
  fun _ => rfl

theorem text_replacement (rest : List UInt8) :
    Pending.nothing.text (replacement ++ rest) = replacement ++ Pending.nothing.text rest :=
  rfl

theorem text_start (byte : UInt8) (rest : List UInt8) :
    Pending.nothing.text (byte :: rest) = (start byte).1 ++ (start byte).2.text rest :=
  rfl

theorem reached_start (byte : UInt8) : (start byte).2.Reached := by
  unfold start
  split
  next => exact reached_nothing
  next large =>
    split
    next owed owes =>
      intro rest
      rw [List.singleton_append, text_start, start, if_neg large, owes]
      rfl
    next => exact reached_nothing

variable {pending : Pending}

theorem Pending.Reached.step (reached : pending.Reached) (byte : UInt8) :
    (pending.step byte).2.Reached := by
  unfold Pending.step
  split
  next => exact reached_start byte
  next low high owed owes =>
    split
    next within =>
      split
      next => exact reached_nothing
      next next later =>
        intro rest
        rw [List.append_assoc, reached, List.singleton_append, Pending.text, Pending.step, owes]
        simp only [if_pos within, List.nil_append]
    next => exact reached_start byte

/-- What a byte between two characters writes is read as it stands. -/
theorem text_start_written (byte : UInt8) (rest : List UInt8) :
    Pending.nothing.text ((start byte).1 ++ rest) =
      (start byte).1 ++ Pending.nothing.text rest := by
  unfold start
  split
  next small =>
    rw [List.singleton_append, text_start, start, if_pos small]
  next =>
    split
    next => rfl
    next => exact text_replacement rest

theorem Pending.Reached.written (reached : pending.Reached) (byte : UInt8) (rest : List UInt8) :
    Pending.nothing.text ((pending.step byte).1 ++ rest) =
      (pending.step byte).1 ++ Pending.nothing.text rest := by
  unfold Pending.step
  split
  next => exact text_start_written byte rest
  next low high owed owes =>
    split
    next within =>
      split
      next =>
        rw [List.append_assoc, reached, List.singleton_append, Pending.text, Pending.step, owes]
        simp only [if_pos within, List.append_assoc, List.singleton_append]
      next => rfl
    next => rw [List.append_assoc, text_replacement, text_start_written, List.append_assoc]

theorem Pending.Reached.text_text (reached : pending.Reached)
    (bytes : List UInt8) : Pending.nothing.text (pending.text bytes) = pending.text bytes := by
  induction bytes generalizing pending with
  | nil =>
    rw [Pending.text]
    split
    next => rfl
    next => rfl
  | cons byte rest ih =>
    rw [Pending.text, reached.written, ih (reached.step byte)]

@[simp]
theorem fromUtf8Lossy_fromUtf8Lossy (bytes : List UInt8) :
    fromUtf8Lossy (fromUtf8Lossy bytes) = fromUtf8Lossy bytes :=
  reached_nothing.text_text bytes

/-! ## No new byte below 128 -/

theorem replacement_large : ∀ byte ∈ replacement, ¬byte < 0x80 := by
  simp [replacement]

theorem owedBy_low {lead : UInt8} {owed : List (UInt8 × UInt8)} (owes : owedBy lead = some owed) :
    ∀ range ∈ owed, 0x80 ≤ range.1 := by
  unfold owedBy at owes
  repeat' split at owes
  all_goals cases owes
  all_goals simp

/-- The begun character has no byte below 128, and owes none. -/
structure Pending.Large (pending : Pending) : Prop where
  taken : ∀ byte ∈ pending.taken, ¬byte < 0x80
  owed : ∀ range ∈ pending.owed, 0x80 ≤ range.1

theorem large_nothing : Pending.nothing.Large :=
  ⟨fun _ member => absurd member List.not_mem_nil, fun _ member => absurd member List.not_mem_nil⟩

theorem large_start (byte : UInt8) : (start byte).2.Large := by
  unfold start
  split
  next => exact large_nothing
  next large =>
    split
    next owed owes =>
      refine ⟨?_, owedBy_low owes⟩
      intro other member
      rw [List.mem_singleton.mp member]
      exact large
    next => exact large_nothing

variable {byte : UInt8}

theorem mem_start {other : UInt8} (member : other ∈ (start byte).1) (small : other < 0x80) :
    other = byte := by
  unfold start at member
  split at member
  next => exact List.mem_singleton.mp member
  next =>
    split at member
    next => exact absurd member List.not_mem_nil
    next => exact absurd small (replacement_large other member)

theorem Pending.Large.step (large : pending.Large) (byte : UInt8) :
    (pending.step byte).2.Large ∧ ∀ other ∈ (pending.step byte).1, other < 0x80 → other = byte := by
  unfold Pending.step
  split
  next => exact ⟨large_start byte, fun other => mem_start⟩
  next low high owed owes =>
    split
    next within =>
      have lower : 0x80 ≤ low := large.owed (low, high) (by rw [owes]; exact List.mem_cons_self)
      have above : ∀ other ∈ pending.taken ++ [byte], ¬other < 0x80 := by
        intro other member
        cases List.mem_append.mp member with
        | inl earlier => exact large.taken other earlier
        | inr last =>
          rw [List.mem_singleton.mp last]
          exact UInt8.not_lt.mpr (UInt8.le_trans lower within.1)
      split
      next =>
        exact ⟨large_nothing, fun other member small => absurd small (above other member)⟩
      next next later =>
        refine ⟨⟨above, ?_⟩, fun other member => absurd member List.not_mem_nil⟩
        intro range member
        exact large.owed range (by rw [owes]; exact List.mem_cons_of_mem _ member)
    next =>
      refine ⟨large_start byte, ?_⟩
      intro other member small
      cases List.mem_append.mp member with
      | inl replaced => exact absurd small (replacement_large other replaced)
      | inr started => exact mem_start started small

theorem Pending.Large.mem_text (large : pending.Large) {bytes : List UInt8}
    (member : byte ∈ pending.text bytes) (small : byte < 0x80) : byte ∈ bytes := by
  induction bytes generalizing pending with
  | nil =>
    rw [Pending.text] at member
    split at member
    next => exact member
    next => exact absurd small (replacement_large byte member)
  | cons first rest ih =>
    rw [Pending.text] at member
    cases List.mem_append.mp member with
    | inl written =>
      rw [(large.step first).2 byte written small]
      exact List.mem_cons_self
    | inr later =>
      exact List.mem_cons_of_mem _ (ih (large.step first).1 later)

theorem mem_of_mem_fromUtf8Lossy {bytes : List UInt8}
    (member : byte ∈ fromUtf8Lossy bytes) (small : byte < 0x80) : byte ∈ bytes :=
  large_nothing.mem_text member small

end LosslessMusic.Codec.LossyUtf8
