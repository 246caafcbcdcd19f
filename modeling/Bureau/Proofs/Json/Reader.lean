import Bureau.Json.Reader
import Bureau.Proofs.Text.Hex

/-!
# Texts and records are read as they are written

A reader takes a text in quotation marks, whatever characters it has, and a record of values that
are read, off the front of a text, and leaves what stands behind them. As many steps as the value
has characters are enough.
-/

namespace Bureau

namespace Json

/-! ### Characters -/

theorem takeUnit_padded {n : Nat} (h : n < 16 ^ 4) (rest : List Char) :
    takeUnit (Text.Hex.padded 4 n ++ rest) = .ok (n, rest) := by
  have length := Text.Hex.length_padded 4 n
  have value := Text.Hex.valueFrom_padded h 0
  rw [Nat.zero_mul, Nat.zero_add] at value
  unfold takeUnit
  rw [if_neg (by rw [List.length_append]; omega), List.take_left' length, value,
    List.drop_left' length]

/-- An escape gives its character, where it is not one of a pair. -/
theorem takeEscape_unit {c : Char} (h : c.toNat < 0x20) (rest : List Char) :
    takeEscape ('u' :: (Text.Hex.padded 4 c.toNat ++ rest)) = .ok (c, rest) := by
  have unit := takeUnit_padded (n := c.toNat) (by omega) rest
  unfold takeEscape takeEscapedUnit
  simp only [unit, bind, Except.bind]
  rw [if_neg (by omega), if_neg (by omega), Char.ofNat_toNat]
  rfl

theorem takeQuoted_backslash (fuel : Nat) (cs : List Char) :
    takeQuoted (fuel + 1) ('\\' :: cs) =
      (takeEscape cs).bind fun (c, rest) =>
        (takeQuoted fuel rest).map fun (cs, rest) => (c :: cs, rest) := by
  rw [takeQuoted]
  cases takeEscape cs with
  | error e => rfl
  | ok found => rfl

/-- A character that stands for itself. -/
theorem takeQuoted_plain (fuel : Nat) {c : Char} (cs : List Char) (quote : c ≠ '"')
    (backslash : c ≠ '\\') (printable : ¬ c.toNat < 0x20) :
    takeQuoted (fuel + 1) (c :: cs) =
      (takeQuoted fuel cs).map fun (others, rest) => (c :: others, rest) := by
  rw [takeQuoted, if_neg printable]
  · rfl
  · exact quote
  · exact backslash

/-- One step takes a character, however it is written. -/
theorem takeQuoted_escaped (fuel : Nat) (c : Char) (cs : List Char) :
    takeQuoted (fuel + 1) (escaped c ++ cs) =
      (takeQuoted fuel cs).map fun (others, rest) => (c :: others, rest) := by
  have marked {mark d : Char} (h : takeEscape (mark :: cs) = .ok (d, cs)) :
      takeQuoted (fuel + 1) ('\\' :: mark :: cs) =
        (takeQuoted fuel cs).map fun (others, rest) => (d :: others, rest) := by
    rw [takeQuoted_backslash, h]
    rfl
  unfold escaped
  -- Seven characters have an escape of their own.
  iterate 7
    split
    · rename_i same
      rw [same]
      exact marked rfl
  split
  · rename_i control
    rw [List.cons_append, List.cons_append, takeQuoted_backslash, takeEscape_unit control]
    rfl
  · rename_i quote backslash _ _ _ _ _ printable
    exact takeQuoted_plain fuel cs quote backslash printable

/-- The characters of a text, up to its quotation mark. -/
theorem takeQuoted_flatMap {fuel : Nat} (s : List Char) (enough : s.length < fuel)
    (rest : List Char) :
    takeQuoted fuel (s.flatMap escaped ++ '"' :: rest) = .ok (s, rest) := by
  induction s generalizing fuel with
  | nil =>
    cases fuel with
    | zero => cases enough
    | succ fuel => rfl
  | cons c s ih =>
    cases fuel with
    | zero => cases enough
    | succ fuel =>
      rw [List.flatMap_cons, List.append_assoc, takeQuoted_escaped,
        ih (Nat.lt_of_succ_lt_succ enough)]
      rfl

theorem length_flatMap_escaped (s : List Char) : s.length ≤ (s.flatMap escaped).length := by
  induction s with
  | nil => exact Nat.le_refl 0
  | cons c s ih =>
    have one : 1 ≤ (escaped c).length := by
      unfold escaped
      repeat' split
      all_goals simp
    rw [List.flatMap_cons, List.length_append, List.length_cons]
    omega

theorem takeText_quoted (s : String) (rest : List Char) :
    takeText (s.toList.flatMap escaped ++ '"' :: rest) = .ok (s, rest) := by
  have enough : s.toList.length < (s.toList.flatMap escaped ++ '"' :: rest).length + 1 := by
    have := length_flatMap_escaped s.toList
    rw [List.length_append]
    omega
  rw [takeText, takeQuoted_flatMap s.toList enough]
  simp [Except.map]

theorem quoted_append (s : String) (rest : List Char) :
    quoted s ++ rest = '"' :: (s.toList.flatMap escaped ++ '"' :: rest) := by
  simp [quoted]

/-! ### Values -/

/-- The value is read off the front of its text, in as many steps as the text has characters. -/
def Reads (j : Json) : Prop :=
  ∀ fuel rest, j.render.length ≤ fuel → takeValue fuel (j.render ++ rest) = (j, some rest)

theorem skipSpace_of_not {c : Char} (h : isSpace c = false) (cs : List Char) :
    skipSpace (c :: cs) = c :: cs := by
  simp [skipSpace, h]

theorem reads_string (s : String) : Reads (string s) := by
  intro fuel rest enough
  cases fuel with
  | zero => simp [render, quoted] at enough
  | succ fuel =>
    rw [render, quoted_append, takeValue, skipSpace_of_not (by decide)]
    simp only [takeText_quoted]

theorem renderMembers_cons (name : String) (value : Json) {others : List (String × Json)}
    (more : others ≠ []) :
    renderMembers ((name, value) :: others) =
      quoted name ++ ':' :: (value.render ++ ',' :: renderMembers others) := by
  rw [renderMembers]
  exact more

/-- The members of a record begin with the quotation mark of a name. -/
theorem renderMembers_eq_cons {members : List (String × Json)} (nonempty : members ≠ []) :
    ∃ cs, renderMembers members = '"' :: cs := by
  obtain ⟨⟨name, value⟩, others, rfl⟩ := List.exists_cons_of_ne_nil nonempty
  cases others with
  | nil => exact ⟨_, rfl⟩
  | cons second others =>
    rw [renderMembers_cons name value (List.cons_ne_nil _ _), quoted_append]
    exact ⟨_, rfl⟩

theorem skipSpace_renderMembers {members : List (String × Json)} (nonempty : members ≠ [])
    (rest : List Char) :
    skipSpace (renderMembers members ++ rest) = renderMembers members ++ rest := by
  obtain ⟨cs, head⟩ := renderMembers_eq_cons nonempty
  rw [head, List.cons_append, skipSpace_of_not (by decide)]

/-- The members of a record, up to its closing brace. -/
theorem takeMembers_render {members : List (String × Json)} (nonempty : members ≠ [])
    (reads : ∀ member ∈ members, Reads member.2) (fuel : Nat) (rest : List Char)
    (enough : (renderMembers members).length ≤ fuel) :
    takeMembers fuel (renderMembers members ++ '\x7d' :: rest) = (members, .closed, some rest) := by
  have colon := skipSpace_of_not (c := ':') (by decide)
  have brace := skipSpace_of_not (c := '\x7d') (by decide)
  have comma := skipSpace_of_not (c := ',') (by decide)
  induction members generalizing fuel with
  | nil => exact absurd rfl nonempty
  | cons first others ih =>
    obtain ⟨name, value⟩ := first
    have own : Reads value := reads (name, value) List.mem_cons_self
    cases fuel with
    | zero => cases others <;> simp [renderMembers, quoted] at enough
    | succ fuel =>
      cases others with
      | nil =>
        have short : value.render.length ≤ fuel := by
          simp [renderMembers, quoted] at enough
          omega
        rw [renderMembers, List.append_assoc, quoted_append, takeMembers]
        simp only [takeText_quoted, List.cons_append, colon, own fuel _ short, brace]
      | cons second others =>
        have more : second :: others ≠ [] := List.cons_ne_nil _ _
        rw [renderMembers_cons name value more] at enough ⊢
        have short : value.render.length ≤ fuel ∧
            (renderMembers (second :: others)).length ≤ fuel := by
          simp [quoted] at enough
          omega
        have tail := ih more (fun m hm => reads m (List.mem_cons_of_mem _ hm)) fuel short.2
        rw [List.append_assoc, quoted_append, takeMembers]
        simp only [takeText_quoted, List.cons_append, List.append_assoc, colon,
          own fuel _ short.1, comma, skipSpace_renderMembers more, tail]

theorem reads_record {members : List (String × Json)} (nonempty : members ≠ [])
    (reads : ∀ member ∈ members, Reads member.2) : Reads (record members) := by
  intro fuel rest enough
  rw [record, render] at enough ⊢
  cases fuel with
  | zero => simp at enough
  | succ fuel =>
    have short : (renderMembers members).length ≤ fuel := by
      simp at enough
      omega
    have taken := takeMembers_render nonempty reads fuel rest short
    have space := skipSpace_renderMembers nonempty ('\x7d' :: rest)
    obtain ⟨cs, head⟩ := renderMembers_eq_cons nonempty
    rw [head, List.cons_append] at taken space
    rw [List.append_assoc, List.cons_append, takeValue, skipSpace_of_not (by decide), head]
    simp only [List.cons_append, List.nil_append, space]
    exact congrArg (fun found => (object found.1 found.2.1, found.2.2)) taken

/-- A whole text is read as the value that it was written from. -/
theorem read_compress {j : Json} (h : Reads j) : read j.compress = (j, none) := by
  have taken := h (2 * j.render.length + 2) [] (by omega)
  rw [List.append_nil] at taken
  simp only [read, compress, String.toList_ofList, taken]
  rfl

end Json

end Bureau
