import MediaCatalog.Proofs.Text.Glob

/-!
Matching with one point of return. A walk goes through pattern and text side by side and remembers
the last star only. Where it cannot go on it returns there and lets that star run over one character
more. Every walk ends, and at the verdict of matching piece by piece.

An earlier star is never needed: what stands between two stars has been found where it first
occurs after the earlier one, and the later star passes over what a later occurrence would leave
out.
-/

namespace MediaCatalog.Text

/-- A walk: what is left of the pattern and of the text, and the point of return. That is what
follows the last star in the pattern, and the text from where the run of the star ends. -/
structure Walk where
  pattern : List Char
  text : List Char
  back : Option (List Char × List Char)

namespace Walk

/-- The walk that has not passed any star. -/
def start (pattern text : List Char) : Walk := ⟨pattern, text, none⟩

/-- Let the last star run over one character more. Without one the walk is lost. -/
def goBack : Option (List Char × List Char) → Walk ⊕ Bool
  | some (pattern, _ :: text) => .inl ⟨pattern, text, some (pattern, text)⟩
  | _ => .inr false

/-- One step of a walk, or its verdict. -/
def step (walk : Walk) : Walk ⊕ Bool :=
  match walk.text with
  | [] => .inr (walk.pattern.all (· = '*'))
  | char :: text =>
    match walk.pattern with
    | [] => goBack walk.back
    | letter :: pattern =>
      if letter = '*' then .inl ⟨pattern, char :: text, some (pattern, char :: text)⟩
      else if StandsFor letter char then .inl ⟨pattern, text, walk.back⟩
      else goBack walk.back

/-- The verdict that a walk comes to within so many steps. -/
def run : (steps : Nat) → Walk → Option Bool
  | 0, _ => none
  | steps + 1, walk =>
    match walk.step with
    | .inl next => run steps next
    | .inr verdict => some verdict

/-! ### What a step keeps -/

/-- Between the point of return and the walk lies one piece without stars, which stands for the
characters that have been passed since. No pattern is longer than `most`. -/
structure Valid (most : Nat) (walk : Walk) : Prop where
  length_le : walk.pattern.length ≤ most
  back_length_le : ∀ pattern text, walk.back = some (pattern, text) → pattern.length ≤ most
  passed : ∀ pattern text, walk.back = some (pattern, text) →
    ∃ piece front, '*' ∉ piece ∧ pattern = piece ++ walk.pattern ∧ text = front ++ walk.text ∧
      List.Forall₂ StandsFor piece front

/-- The walk can still succeed: from where it is, or after the last star has run on. -/
def Succeeds (walk : Walk) : Prop :=
  Matches walk.pattern walk.text ∨
    ∃ pattern char text, walk.back = some (pattern, char :: text) ∧ Matches ('*' :: pattern) text

/-- How often the walk can still return. -/
def returns (walk : Walk) : Nat :=
  match walk.back with
  | none => walk.text.length + 1
  | some (_, text) => text.length

/-- A bound on the steps that are left. -/
def potential (most : Nat) (walk : Walk) : Nat := walk.returns * (most + 1) + walk.pattern.length

/-- A step comes closer to the end and leaves open what was open, and a verdict is right. -/
def Advances (most : Nat) (walk : Walk) : Walk ⊕ Bool → Prop
  | .inl next => next.Valid most ∧ (next.Succeeds ↔ walk.Succeeds) ∧
      next.potential most < walk.potential most
  | .inr verdict => verdict = true ↔ walk.Succeeds

variable {most : Nat} {walk : Walk} {pattern text : List Char} {char : Char}

theorem valid_start (pattern text : List Char) : (start pattern text).Valid pattern.length where
  length_le := Nat.le_refl _
  back_length_le := nofun
  passed := nofun

theorem succeeds_start : (start pattern text).Succeeds ↔ Matches pattern text :=
  or_iff_left nofun

/-- If the last star can run on, what is left of the pattern matches some shorter end of the text
that is left. -/
theorem Valid.exists_suffix (h : walk.Valid most) (hback : walk.back = some (pattern, char :: text))
    (hmatches : Matches ('*' :: pattern) text) :
    ∃ rest, rest <:+ walk.text ∧ rest.length < walk.text.length ∧ Matches walk.pattern rest := by
  obtain ⟨piece, front, hpiece, rfl, hpassed, hfront⟩ := h.passed pattern (char :: text) hback
  obtain ⟨rest, ⟨run, front', rfl, hfront'⟩, hrest⟩ := (matches_star_append_iff hpiece).mp hmatches
  have hlength : rest.length < walk.text.length := by
    have htotal := congrArg List.length hpassed
    have hpieceLength := hfront.length_eq
    have hpieceLength' := hfront'.length_eq
    simp only [List.length_cons, List.length_append] at htotal
    omega
  have hsuffix : rest <:+ char :: (run ++ (front' ++ rest)) := ⟨char :: (run ++ front'), by simp⟩
  have hsuffix' : walk.text <:+ char :: (run ++ (front' ++ rest)) := ⟨front, hpassed.symm⟩
  exact ⟨rest, List.suffix_of_suffix_length_le hsuffix hsuffix' (Nat.le_of_lt hlength), hlength,
    hrest⟩

/-- Running on succeeds from where the run ends next, or after it has run on further. -/
theorem succeeds_return :
    (Walk.mk pattern text (some (pattern, text))).Succeeds ↔ Matches ('*' :: pattern) text := by
  cases text with
  | nil =>
      rw [Matches.star_nil_iff]
      refine or_iff_left ?_
      rintro ⟨pattern', char, text, hback, -⟩
      cases hback
  | cons char text =>
      rw [Matches.star_cons_iff]
      refine or_congr_right ⟨?_, fun h => ⟨pattern, char, text, rfl, h⟩⟩
      rintro ⟨pattern', char', text', hback, h⟩
      cases hback
      exact h

/-- Where the walk cannot go on, going back is right. -/
theorem Valid.advances_goBack (h : walk.Valid most) (hlost : ¬ Matches walk.pattern walk.text) :
    walk.Advances most (goBack walk.back) := by
  have hback : walk.Succeeds ↔ ∃ pattern char text,
      walk.back = some (pattern, char :: text) ∧ Matches ('*' :: pattern) text :=
    or_iff_right hlost
  obtain ⟨pattern, text, back⟩ := walk
  match back with
  | none | some (after, []) =>
      refine (iff_false_left Bool.false_ne_true).mpr ?_
      rw [hback]
      rintro ⟨pattern', char, text', hpoint, -⟩
      cases hpoint
  | some (after, char :: rest) =>
      refine ⟨⟨h.back_length_le after _ rfl, ?_, ?_⟩, ?_, ?_⟩
      · rintro _ _ ⟨⟩
        exact h.back_length_le after _ rfl
      · rintro _ _ ⟨⟩
        exact ⟨[], [], List.not_mem_nil, rfl, rfl, .nil⟩
      · rw [succeeds_return, hback]
        refine ⟨fun hmatches => ⟨after, char, rest, rfl, hmatches⟩, ?_⟩
        rintro ⟨_, _, _, ⟨⟩, hmatches⟩
        exact hmatches
      · have hlength := h.back_length_le after _ rfl
        simp only [potential, returns, List.length_cons, Nat.add_mul, Nat.one_mul]
        omega

/-- Every step of a walk is right. -/
theorem Valid.advances_step (h : walk.Valid most) : walk.Advances most walk.step := by
  rw [step]
  split
  · next htext =>
    -- The text is used up, and there is no shorter end of it.
    rw [Advances, Succeeds, htext, Matches.nil_text_iff]
    refine (or_iff_left ?_).symm
    rintro ⟨pattern, char, text, hback, hmatches⟩
    obtain ⟨rest, -, hlength, -⟩ := h.exists_suffix hback hmatches
    rw [htext] at hlength
    exact absurd hlength (Nat.not_lt_zero _)
  · next char text htext =>
    split
    · next hpattern =>
      refine h.advances_goBack ?_
      rw [hpattern, htext, Matches.nil_iff]
      exact List.cons_ne_nil char text
    · next letter pattern hpattern =>
      have hmost := h.length_le
      rw [hpattern, List.length_cons] at hmost
      split
      · next hstar =>
        subst hstar
        refine ⟨⟨Nat.le_of_succ_le hmost, ?_, ?_⟩, ?_, ?_⟩
        · rintro _ _ ⟨⟩
          exact Nat.le_of_succ_le hmost
        · rintro _ _ ⟨⟩
          exact ⟨[], [], List.not_mem_nil, rfl, rfl, .nil⟩
        · -- What the earlier star could still do, the new one does as well.
          rw [succeeds_return, Succeeds, hpattern, htext]
          refine (or_iff_left_of_imp ?_).symm
          rintro ⟨pattern', char', text', hback, hmatches⟩
          obtain ⟨rest, hrest, -, hmatches⟩ := h.exists_suffix hback hmatches
          rw [hpattern] at hmatches
          rw [htext] at hrest
          exact hmatches.of_suffix hrest
        · have hreturns : (char :: text).length ≤ walk.returns := by
            rw [returns, ← htext]
            split
            · exact Nat.le_succ _
            · next pattern' text' hback =>
              obtain ⟨piece, front, -, -, rfl, -⟩ := h.passed pattern' text' hback
              rw [List.length_append]
              exact Nat.le_add_left _ _
          have hmul := Nat.mul_le_mul_right (most + 1) hreturns
          simp only [potential, hpattern, returns, List.length_cons] at hmul ⊢
          omega
      · next hstar =>
        split
        · next hstands =>
          refine ⟨⟨Nat.le_of_succ_le hmost, h.back_length_le, fun pattern' text' hback => ?_⟩,
            ?_, ?_⟩
          · obtain ⟨piece, front, hpiece, rfl, rfl, hfront⟩ := h.passed pattern' text' hback
            refine ⟨piece ++ [letter], front ++ [char], ?_, ?_, ?_, ?_⟩
            · simp [hpiece, Ne.symm hstar]
            · rw [hpattern, List.append_assoc, List.singleton_append]
            · rw [htext, List.append_assoc, List.singleton_append]
            · exact List.rel_append hfront (.cons hstands .nil)
          · rw [Succeeds, Succeeds, hpattern, htext, Matches.cons_cons_iff hstar]
            exact or_congr_left (and_iff_right hstands).symm
          · have hreturns : (Walk.mk pattern text walk.back).returns ≤ walk.returns := by
              rw [returns, returns, htext]
              dsimp only
              split
              · exact Nat.succ_le_succ (Nat.le_succ _)
              · exact Nat.le_refl _
            have hmul := Nat.mul_le_mul_right (most + 1) hreturns
            simp only [potential, hpattern, List.length_cons]
            omega
        · next hstands =>
          refine h.advances_goBack ?_
          rw [hpattern, htext, Matches.cons_cons_iff hstar]
          exact fun hmatches => hstands hmatches.1

/-! ### Whole walks -/

/-- A walk comes to its verdict within the steps that its potential allows. -/
theorem Valid.exists_run (h : walk.Valid most) {steps : Nat}
    (hsteps : walk.potential most < steps) :
    ∃ verdict, walk.run steps = some verdict ∧ (verdict = true ↔ walk.Succeeds) := by
  induction steps generalizing walk with
  | zero => exact absurd hsteps (Nat.not_lt_zero _)
  | succ steps ih =>
      have hadvances := h.advances_step
      rw [run]
      cases hstep : walk.step with
      | inl next =>
          rw [hstep] at hadvances
          obtain ⟨hvalid, hsucceeds, hpotential⟩ := hadvances
          obtain ⟨verdict, hrun, hverdict⟩ := ih hvalid (by omega)
          exact ⟨verdict, hrun, hverdict.trans hsucceeds⟩
      | inr verdict =>
          rw [hstep] at hadvances
          exact ⟨verdict, rfl, hadvances⟩

/-- The walk from the beginning ends, at the verdict of matching piece by piece. -/
theorem run_start (pattern text : List Char) :
    (start pattern text).run ((text.length + 2) * (pattern.length + 1)) =
      some (globChars pattern text) := by
  have hpotential : (start pattern text).potential pattern.length <
      (text.length + 2) * (pattern.length + 1) := by
    simp only [start, potential, returns, Nat.add_mul]
    omega
  obtain ⟨verdict, hrun, hverdict⟩ := (valid_start pattern text).exists_run hpotential
  rw [succeeds_start, ← globChars_iff] at hverdict
  rw [hrun, Bool.eq_iff_iff.mpr hverdict]

end Walk

/-- A pattern matches a text exactly if the lower-case pattern matches the lower-case text letter by
letter. A walk with one point of return finds that out, and it ends. -/
theorem glob_iff_matches (pattern text : String) :
    (glob pattern text = true ↔
      Matches (lowerChars pattern.toList) (lowerChars text.toList)) ∧
    (Walk.start (lowerChars pattern.toList) (lowerChars text.toList)).run
        (((lowerChars text.toList).length + 2) * ((lowerChars pattern.toList).length + 1)) =
      some (glob pattern text) :=
  ⟨globChars_iff _ _, Walk.run_start _ _⟩

end MediaCatalog.Text
