import RouteBinder.Text.ShellWords

/-!
# RouteBinder.Proofs.Text.ShellWords

**Which command lines have words.** A line is `Whole` when each of its quotes is closed and each of its
backslashes has a character behind it. `ShellWords.split` goes through a line character by character with
one of four things in mind; what it still awaits then is `Awaits`. So a line has words exactly when it is
whole (`ShellWords.exists_split_iff`).
-/

namespace RouteBinder.Text.ShellWords

/-- What stands between two quotation marks. Only double quotes let a backslash take a character. -/
inductive Inside (mark : Char) : List Char → Prop where
  | nil : Inside mark []
  | plain {c : Char} {rest : List Char} (hmark : c ≠ mark) (hescape : ¬ (c = '\\' ∧ mark = '\x22'))
      (h : Inside mark rest) : Inside mark (c :: rest)
  | escape {c : Char} {rest : List Char} (hmark : mark = '\x22') (h : Inside mark rest) :
      Inside mark ('\\' :: c :: rest)

/-- No quote is left open, and no backslash is left alone. -/
inductive Whole : List Char → Prop where
  | nil : Whole []
  | plain {c : Char} {rest : List Char} (hescape : c ≠ '\\') (hquote : ¬ (c = '\x27' ∨ c = '\x22'))
      (h : Whole rest) : Whole (c :: rest)
  | escape {c : Char} {rest : List Char} (h : Whole rest) : Whole ('\\' :: c :: rest)
  | quoted {mark : Char} {body rest : List Char} (hmark : mark = '\x27' ∨ mark = '\x22')
      (hbody : Inside mark body) (h : Whole rest) : Whole (mark :: (body ++ mark :: rest))

/-- The quote that is open is closed, and the line is whole from there on. -/
def Closes (mark : Char) (line : List Char) : Prop :=
  ∃ body rest, line = body ++ mark :: rest ∧ Inside mark body ∧ Whole rest

/-- What has to follow for the line to be whole. -/
def Awaits : Mode → List Char → Prop
  | .bare, line => Whole line
  | .quoted mark, line => Closes mark line
  | .escaped, line => ∃ c rest, line = c :: rest ∧ Whole rest
  | .escapedInQuotes, line => ∃ c rest, line = c :: rest ∧ Closes '\x22' rest

variable {c mark : Char} {rest : List Char}

theorem whole_backslash_iff : Whole ('\\' :: rest) ↔ Awaits .escaped rest := by
  constructor
  · intro h
    cases h with
    | plain hescape => exact absurd rfl hescape
    | escape h => exact ⟨_, _, rfl, h⟩
    | quoted hmark => exact absurd hmark (by decide)
  · rintro ⟨c, rest, rfl, h⟩
    exact .escape h

theorem whole_mark_iff (hmark : mark = '\x27' ∨ mark = '\x22') :
    Whole (mark :: rest) ↔ Closes mark rest := by
  constructor
  · intro h
    cases h with
    | plain _ hquote => exact absurd hmark hquote
    | escape h => exact absurd hmark (by decide)
    | quoted _ hbody h => exact ⟨_, _, rfl, hbody, h⟩
  · rintro ⟨body, rest, rfl, hbody, h⟩
    exact .quoted hmark hbody h

theorem whole_cons_iff (hescape : c ≠ '\\') (hquote : ¬ (c = '\x27' ∨ c = '\x22')) :
    Whole (c :: rest) ↔ Whole rest := by
  constructor
  · intro h
    cases h with
    | plain _ _ h => exact h
    | escape h => exact absurd rfl hescape
    | quoted hmark => exact absurd hmark hquote
  · exact .plain hescape hquote

theorem closes_self_iff : Closes mark (mark :: rest) ↔ Whole rest := by
  constructor
  · rintro ⟨body, rest', heq, hbody, h⟩
    cases hbody with
    | nil =>
        cases heq
        exact h
    | plain hmark => exact absurd (List.cons_eq_cons.1 heq).1.symm hmark
    | escape hmark => exact absurd ((List.cons_eq_cons.1 heq).1.symm.trans hmark) (by decide)
  · exact fun h => ⟨[], rest, rfl, .nil, h⟩

theorem closes_backslash_iff :
    Closes '\x22' ('\\' :: rest) ↔ Awaits .escapedInQuotes rest := by
  constructor
  · rintro ⟨body, rest', heq, hbody, h⟩
    cases hbody with
    | nil => exact absurd (List.cons_eq_cons.1 heq).1 (by decide)
    | plain _ hescape => exact absurd ⟨(List.cons_eq_cons.1 heq).1.symm, rfl⟩ hescape
    | escape _ hbody => exact ⟨_, _, (List.cons_eq_cons.1 heq).2, _, rest', rfl, hbody, h⟩
  · rintro ⟨c, _, rfl, body, rest, rfl, hbody, h⟩
    exact ⟨'\\' :: c :: body, rest, rfl, .escape rfl hbody, h⟩

theorem closes_cons_iff (hmark : c ≠ mark) (hescape : ¬ (c = '\\' ∧ mark = '\x22')) :
    Closes mark (c :: rest) ↔ Closes mark rest := by
  constructor
  · rintro ⟨body, rest', heq, hbody, h⟩
    cases hbody with
    | nil => exact absurd (List.cons_eq_cons.1 heq).1 hmark
    | plain _ _ hbody => exact ⟨_, rest', (List.cons_eq_cons.1 heq).2, hbody, h⟩
    | escape hdouble => exact absurd ⟨(List.cons_eq_cons.1 heq).1, hdouble⟩ hescape
  · rintro ⟨body, rest', rfl, hbody, h⟩
    exact ⟨c :: body, rest', rfl, .plain hmark hescape hbody, h⟩

/-- What separates words has no other meaning. -/
theorem of_isSeparator (h : isSeparator c = true) : c ≠ '\\' ∧ ¬ (c = '\x27' ∨ c = '\x22') := by
  simp only [isSeparator, Bool.or_eq_true, beq_iff_eq] at h
  rcases h with ((rfl | rfl) | rfl) | rfl <;> decide

theorem exists_map_eq_ok_iff {ε α β : Type} {result : Except ε α} {f : α → β} :
    (∃ value, result.map f = .ok value) ↔ ∃ value, result = .ok value := by
  cases result with
  | error cause => exact iff_of_false nofun nofun
  | ok value => exact iff_of_true ⟨_, rfl⟩ ⟨_, rfl⟩

theorem exists_cons_iff {P : List Char → Prop} :
    (∃ first behind, c :: rest = first :: behind ∧ P behind) ↔ P rest := by
  constructor
  · rintro ⟨first, behind, heq, h⟩
    cases heq
    exact h
  · exact fun h => ⟨c, rest, rfl, h⟩

/-- A scan succeeds when what it awaits follows, whatever word has begun. -/
theorem exists_scan_iff (mode : Mode) (word : Option (List Char)) (line : List Char) :
    (∃ words, scan mode word line = .ok words) ↔ Awaits mode line := by
  induction line generalizing mode word with
  | nil =>
      cases mode with
      | bare => exact iff_of_true ⟨_, rfl⟩ .nil
      | quoted mark => exact iff_of_false nofun (by simp [Awaits, Closes])
      | escaped => exact iff_of_false nofun nofun
      | escapedInQuotes => exact iff_of_false nofun nofun
  | cons c rest ih =>
      cases mode with
      | bare =>
          rw [scan]
          split
          · rename_i hblank
            rw [exists_map_eq_ok_iff, ih]
            obtain ⟨hescape, hquote⟩ := of_isSeparator hblank
            exact (whole_cons_iff hescape hquote).symm
          · split
            · rename_i hescape
              rw [ih, beq_iff_eq.1 hescape]
              exact whole_backslash_iff.symm
            · rename_i hescape
              split
              · rename_i hquote
                rw [ih]
                exact (whole_mark_iff (by simpa using hquote)).symm
              · rename_i hquote
                rw [ih]
                exact (whole_cons_iff (by simpa using hescape) (by simpa using hquote)).symm
      | quoted mark =>
          rw [scan]
          split
          · rename_i hmark
            rw [ih, beq_iff_eq.1 hmark]
            exact closes_self_iff.symm
          · rename_i hmark
            split
            · rename_i hescape
              obtain ⟨rfl, rfl⟩ : c = '\\' ∧ mark = '\x22' := by simpa using hescape
              rw [ih]
              exact closes_backslash_iff.symm
            · rename_i hescape
              rw [ih]
              exact (closes_cons_iff (by simpa using hmark) (by simpa using hescape)).symm
      | escaped =>
          rw [scan, ih]
          exact exists_cons_iff.symm
      | escapedInQuotes =>
          rw [scan, ih]
          exact exists_cons_iff.symm

/-- A command line has words exactly when it is whole. -/
theorem exists_split_iff (line : String) :
    (∃ words, split line = .ok words) ↔ Whole line.toList := by
  rw [split, exists_map_eq_ok_iff, exists_scan_iff, Awaits]

end RouteBinder.Text.ShellWords
