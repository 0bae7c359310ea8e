import LosslessMusic.Text

/-!
# Absolute paths

The names `java.io.File` gives its files: without repeated and trailing slashes, and
absolute with `/` as the working directory. Symbolic links and `..` are left alone.
-/

namespace LosslessMusic.Finishing

/-- Repeated slashes become one, trailing ones vanish. -/
def squeeze : List Char → List Char
  | [] => []
  | char :: rest =>
    if char ≠ '/' then char :: squeeze rest
    else
      match squeeze rest with
      | [] => []
      | next :: tail => if next = '/' then next :: tail else '/' :: next :: tail

/-- A name is made absolute. -/
def rooted (name : List Char) : List Char :=
  match name with
  | [] => ['/']
  | char :: rest => if char = '/' then char :: rest else '/' :: char :: rest

/-- `File(path).absolutePath`. -/
def absolutePath (path : String) : String :=
  String.ofList (rooted (squeeze path.toList))

theorem toList_absolutePath (path : String) :
    (absolutePath path).toList = rooted (squeeze path.toList) := by
  rw [absolutePath, String.toList_ofList]

theorem squeeze_cons {char : Char} (other : char ≠ '/') (rest : List Char) :
    squeeze (char :: rest) = char :: squeeze rest := by
  rw [squeeze, if_pos other]

theorem squeeze_slash_nil {rest : List Char} (nothing : squeeze rest = []) :
    squeeze ('/' :: rest) = [] := by
  simp [squeeze, nothing]

theorem squeeze_slash_cons {rest tail : List Char} {next : Char}
    (squeezed : squeeze rest = next :: tail) :
    squeeze ('/' :: rest) = if next = '/' then next :: tail else '/' :: next :: tail := by
  simp [squeeze, squeezed]

theorem squeeze_squeeze (name : List Char) : squeeze (squeeze name) = squeeze name := by
  induction name with
  | nil => rfl
  | cons char rest ih =>
    by_cases slash : char = '/'
    · subst slash
      cases squeezed : squeeze rest with
      | nil =>
        rw [squeeze_slash_nil squeezed]
        rfl
      | cons next tail =>
        rw [squeezed] at ih
        rw [squeeze_slash_cons squeezed]
        by_cases again : next = '/'
        · rw [if_pos again]
          exact ih
        · rw [if_neg again, squeeze_slash_cons ih, if_neg again]
    · rw [squeeze_cons slash, squeeze_cons slash, ih]

theorem rooted_squeeze_rooted (name : List Char) :
    rooted (squeeze (rooted (squeeze name))) = rooted (squeeze name) := by
  have stays := squeeze_squeeze name
  cases squeezed : squeeze name with
  | nil => rfl
  | cons next tail =>
    rw [squeezed] at stays
    unfold rooted
    by_cases slash : next = '/'
    · simp [slash] at stays ⊢
      simp [stays]
    · simp only [slash, if_false]
      rw [squeeze_slash_cons stays]
      simp [slash]

@[simp] theorem absolutePath_absolutePath (path : String) :
    absolutePath (absolutePath path) = absolutePath path := by
  unfold absolutePath
  rw [String.toList_ofList, rooted_squeeze_rooted]

/-- A last character that is no slash stays the last one. -/
theorem getLast?_squeeze {last : Char} (other : last ≠ '/') (name : List Char) :
    (squeeze (name ++ [last])).getLast? = some last := by
  induction name with
  | nil =>
    rw [List.nil_append, squeeze_cons other]
    rfl
  | cons char rest ih =>
    rw [List.cons_append]
    cases squeezed : squeeze (rest ++ [last]) with
    | nil =>
      rw [squeezed] at ih
      cases ih
    | cons next tail =>
      rw [squeezed] at ih
      by_cases slash : char = '/'
      · subst slash
        rw [squeeze_slash_cons squeezed]
        split
        · exact ih
        · rw [List.getLast?_cons_cons]
          exact ih
      · rw [squeeze_cons slash, squeezed, List.getLast?_cons_cons]
        exact ih

theorem getLast?_absolutePath {path : String} {front : List Char} {last : Char}
    (other : last ≠ '/') (ends : path.toList = front ++ [last]) :
    (absolutePath path).toList.getLast? = some last := by
  have kept := getLast?_squeeze other front
  rw [toList_absolutePath, ends]
  cases squeezed : squeeze (front ++ [last]) with
  | nil =>
    rw [squeezed] at kept
    cases kept
  | cons next tail =>
    rw [squeezed] at kept
    unfold rooted
    simp only
    split
    · exact kept
    · rw [List.getLast?_cons_cons]
      exact kept

/-- The head of a squeezed name is the head of the name. -/
theorem squeeze_head {char next : Char} {rest tail : List Char}
    (squeezed : squeeze (char :: rest) = next :: tail) : next = char := by
  by_cases slash : char = '/'
  · subst slash
    cases inner : squeeze rest with
    | nil =>
      rw [squeeze_slash_nil inner] at squeezed
      cases squeezed
    | cons first others =>
      rw [squeeze_slash_cons inner] at squeezed
      split at squeezed
      next same =>
        cases squeezed
        exact same
      · cases squeezed
        rfl
  · rw [squeeze_cons slash] at squeezed
    cases squeezed
    rfl

theorem length_squeeze_append {tail : List Char} (filled : tail ≠ [])
    (plain : '/' ∉ tail) (name : List Char) :
    (squeeze name).length + tail.length ≤ (squeeze (name ++ tail)).length := by
  have whole : squeeze tail = tail := by
    clear filled
    induction tail with
    | nil => rfl
    | cons char rest ih =>
      rw [List.mem_cons, not_or] at plain
      rw [squeeze_cons (Ne.symm plain.1), ih plain.2]
  induction name with
  | nil =>
    rw [List.nil_append, whole]
    simp [squeeze]
  | cons char rest ih =>
    rw [List.cons_append]
    by_cases slash : char = '/'
    · subst slash
      cases longer : squeeze (rest ++ tail) with
      | nil =>
        rw [longer, List.length_nil] at ih
        have positive := List.length_pos_of_ne_nil filled
        omega
      | cons next others =>
        rw [longer] at ih
        rw [squeeze_slash_cons longer]
        cases shorter : squeeze rest with
        | nil =>
          rw [squeeze_slash_nil shorter]
          rw [shorter] at ih
          split
          · exact ih
          · exact Nat.le_succ_of_le ih
        | cons first remaining =>
          rw [squeeze_slash_cons shorter]
          rw [shorter] at ih
          have same : first = next := by
            cases rest with
            | nil => cases shorter
            | cons head body =>
              rw [squeeze_head shorter, squeeze_head longer]
          subst same
          split
          · exact ih
          · simp only [List.length_cons] at ih ⊢
            omega
    · rw [squeeze_cons slash, squeeze_cons slash]
      simp only [List.length_cons]
      omega

theorem absolutePath_append_ne (path : String) {tail : String} (plain : '/' ∉ tail.toList)
    (long : 1 < tail.toList.length) :
    absolutePath (absolutePath path ++ tail) ≠ absolutePath path := by
  have filled : tail.toList ≠ [] := by
    intro nothing
    rw [nothing] at long
    simp at long
  intro same
  have longer := length_squeeze_append filled plain (absolutePath path).toList
  have bounds : ∀ name : List Char, name.length ≤ (rooted name).length ∧
      (rooted name).length ≤ name.length + 1 := by
    intro name
    unfold rooted
    split
    · simp
    · split
      · simp
      · simp
  have left := (bounds (squeeze (absolutePath path ++ tail).toList)).1
  have right := (bounds (squeeze (absolutePath path).toList)).2
  have equal := congrArg (fun text => text.toList.length) same
  simp only [toList_absolutePath (absolutePath path ++ tail)] at equal
  rw [← absolutePath_absolutePath path, toList_absolutePath (absolutePath path)] at equal
  rw [String.toList_append] at left equal
  rw [absolutePath_absolutePath] at equal
  omega

end LosslessMusic.Finishing
