import Mathlib.Data.List.Forall2
import MediaCatalog.Text.Glob

/-!
The language of patterns. What a pattern matches is said here letter by letter, and matching piece
by piece is proved to decide it. The one step that is not plain is that each piece may be taken
where it first occurs: what follows a later occurrence is the end of what follows the first one, and
the star that comes next passes over the rest.
-/

namespace MediaCatalog.Text

/-! ### What patterns match -/

/-- The texts that a pattern matches: a star stands for any run of characters, a question mark for
any one of them, and everything else for itself. -/
inductive Matches : (pattern text : List Char) → Prop where
  | empty : Matches [] []
  | star {pattern text : List Char} (run : List Char) (h : Matches pattern text) :
      Matches ('*' :: pattern) (run ++ text)
  | any {pattern text : List Char} (char : Char) (h : Matches pattern text) :
      Matches ('?' :: pattern) (char :: text)
  | itself {pattern text : List Char} {char : Char} (hstar : char ≠ '*') (hany : char ≠ '?')
      (h : Matches pattern text) : Matches (char :: pattern) (char :: text)

/-- A letter of a pattern that is no star stands for a character. -/
abbrev StandsFor (letter char : Char) : Prop := letter = '?' ∨ letter = char

namespace Matches

variable {pattern text : List Char}

theorem nil_iff : Matches [] text ↔ text = [] := by
  refine ⟨fun h => ?_, ?_⟩
  · cases h
    rfl
  · rintro rfl
    exact empty

theorem star_iff :
    Matches ('*' :: pattern) text ↔ ∃ run rest, text = run ++ rest ∧ Matches pattern rest := by
  refine ⟨fun h => ?_, ?_⟩
  · cases h with
    | star run h => exact ⟨run, _, rfl, h⟩
    | itself hstar hany h => exact absurd rfl hstar
  · rintro ⟨run, rest, rfl, h⟩
    exact star run h

/-- A star passes over as much as there is. -/
theorem append_left (front : List Char) (h : Matches ('*' :: pattern) text) :
    Matches ('*' :: pattern) (front ++ text) := by
  obtain ⟨run, rest, rfl, hrest⟩ := star_iff.mp h
  rw [← List.append_assoc]
  exact star (front ++ run) hrest

theorem of_suffix {rest : List Char} (hrest : rest <:+ text) (h : Matches ('*' :: pattern) rest) :
    Matches ('*' :: pattern) text := by
  obtain ⟨front, rfl⟩ := hrest
  exact h.append_left front

theorem not_cons_nil {letter : Char} (hstar : letter ≠ '*') : ¬ Matches (letter :: pattern) [] := by
  intro h
  generalize htext : [] = text at h
  cases h with
  | star run h => exact hstar rfl
  | any char h | itself _ _ h => cases htext

theorem cons_cons_iff {letter char : Char} (hstar : letter ≠ '*') :
    Matches (letter :: pattern) (char :: text) ↔ StandsFor letter char ∧ Matches pattern text := by
  refine ⟨fun h => ?_, ?_⟩
  · generalize hwhole : char :: text = whole at h
    cases h with
    | star run h => exact absurd rfl hstar
    | any char' h =>
        obtain ⟨rfl, rfl⟩ := List.cons.inj hwhole
        exact ⟨.inl rfl, h⟩
    | itself _ hany h =>
        obtain ⟨rfl, rfl⟩ := List.cons.inj hwhole
        exact ⟨.inr rfl, h⟩
  · rintro ⟨hstands, h⟩
    by_cases hany : letter = '?'
    · exact hany ▸ any char h
    · exact hstands.resolve_left hany ▸ itself hstar hany h

/-- A star stands for nothing, or for one character more. -/
theorem star_cons_iff {char : Char} :
    Matches ('*' :: pattern) (char :: text) ↔
      Matches pattern (char :: text) ∨ Matches ('*' :: pattern) text := by
  refine ⟨fun h => ?_, ?_⟩
  · obtain ⟨run, rest, hwhole, hrest⟩ := star_iff.mp h
    cases run with
    | nil => exact .inl (hwhole ▸ hrest)
    | cons _ run =>
        obtain ⟨rfl, rfl⟩ := List.cons.inj hwhole
        exact .inr (star run hrest)
  · rintro (h | h)
    · exact star [] h
    · exact h.append_left [char]

theorem star_nil_iff : Matches ('*' :: pattern) [] ↔ Matches pattern [] := by
  refine ⟨fun h => ?_, fun h => star [] h⟩
  obtain ⟨run, rest, hwhole, h⟩ := star_iff.mp h
  obtain ⟨rfl, rfl⟩ := List.append_eq_nil_iff.mp hwhole.symm
  exact h

/-- Nothing is matched by stars only. -/
theorem nil_text_iff : Matches pattern [] ↔ pattern.all (· = '*') = true := by
  induction pattern with
  | nil => exact ⟨fun _ => rfl, fun _ => empty⟩
  | cons letter pattern ih =>
      by_cases hstar : letter = '*'
      · subst hstar
        rw [star_nil_iff, ih]
        simp
      · simp [hstar, not_cons_nil hstar]

/-- Letters that are no stars come one to a character before the rest. -/
theorem append_iff {piece : List Char} (hpiece : '*' ∉ piece) :
    Matches (piece ++ pattern) text ↔
      ∃ front rest, text = front ++ rest ∧ List.Forall₂ StandsFor piece front ∧
        Matches pattern rest := by
  induction piece generalizing text with
  | nil =>
      refine ⟨fun h => ⟨[], text, rfl, .nil, h⟩, ?_⟩
      rintro ⟨front, rest, rfl, hfront, h⟩
      rw [List.forall₂_nil_left_iff.mp hfront]
      exact h
  | cons letter piece ih =>
      obtain ⟨hstar, hpiece⟩ := List.ne_and_not_mem_of_not_mem_cons hpiece
      rw [List.cons_append]
      cases text with
      | nil =>
          refine ⟨fun h => absurd h (not_cons_nil (Ne.symm hstar)), ?_⟩
          rintro ⟨front, rest, hwhole, hfront, -⟩
          rw [(List.append_eq_nil_iff.mp hwhole.symm).1] at hfront
          cases hfront
      | cons char text =>
          rw [cons_cons_iff (Ne.symm hstar), ih hpiece]
          constructor
          · rintro ⟨hstands, front, rest, rfl, hfront, h⟩
            exact ⟨char :: front, rest, rfl, .cons hstands hfront, h⟩
          · rintro ⟨front, rest, hwhole, hfront, h⟩
            cases hfront with
            | cons hstands hfront =>
                obtain ⟨rfl, rfl⟩ := List.cons.inj hwhole
                exact ⟨hstands, _, rest, rfl, hfront, h⟩

end Matches

/-! ### One piece -/

variable {piece text rest : List Char}

/-- What follows a piece at the front of a text. -/
theorem afterPiece?_eq_some_iff :
    afterPiece? piece text = some rest ↔
      ∃ front, text = front ++ rest ∧ List.Forall₂ StandsFor piece front := by
  induction piece generalizing text with
  | nil =>
      rw [afterPiece?, Option.some_inj]
      refine ⟨fun h => ⟨[], h, .nil⟩, ?_⟩
      rintro ⟨front, rfl, hfront⟩
      rw [List.forall₂_nil_left_iff.mp hfront]
      rfl
  | cons letter piece ih =>
      cases text with
      | nil =>
          refine ⟨fun h => (nomatch h), ?_⟩
          rintro ⟨front, hwhole, hfront⟩
          rw [(List.append_eq_nil_iff.mp hwhole.symm).1] at hfront
          cases hfront
      | cons char text =>
          rw [afterPiece?]
          constructor
          · intro h
            split at h
            · next hstands =>
              obtain ⟨front, rfl, hfront⟩ := ih.mp h
              exact ⟨char :: front, rfl, .cons hstands hfront⟩
            · cases h
          · rintro ⟨front, hwhole, hfront⟩
            cases hfront with
            | cons hstands hfront =>
                obtain ⟨rfl, rfl⟩ := List.cons.inj hwhole
                rw [if_pos hstands]
                exact ih.mpr ⟨_, rfl, hfront⟩

/-- What follows some occurrence of a piece in a text. -/
def Follows (piece text rest : List Char) : Prop :=
  ∃ run front, text = run ++ (front ++ rest) ∧ List.Forall₂ StandsFor piece front

theorem Follows.suffix (h : Follows piece text rest) : rest <:+ text := by
  obtain ⟨run, front, rfl, -⟩ := h
  exact ⟨run ++ front, List.append_assoc run front rest⟩

/-- A piece occurs at the front, or further on. -/
theorem follows_cons_iff {char : Char} :
    Follows piece (char :: text) rest ↔
      afterPiece? piece (char :: text) = some rest ∨ Follows piece text rest := by
  rw [afterPiece?_eq_some_iff]
  constructor
  · rintro ⟨run, front, hwhole, hfront⟩
    cases run with
    | nil => exact .inl ⟨front, hwhole, hfront⟩
    | cons _ run =>
        obtain ⟨rfl, rfl⟩ := List.cons.inj hwhole
        exact .inr ⟨run, front, rfl, hfront⟩
  · rintro (⟨front, hwhole, hfront⟩ | ⟨run, front, rfl, hfront⟩)
    · exact ⟨[], front, hwhole, hfront⟩
    · exact ⟨char :: run, front, rfl, hfront⟩

/-- Looking for a piece fails only where it does not occur. -/
theorem not_follows_of_afterFirst? (h : afterFirst? piece text = none) (rest : List Char) :
    ¬ Follows piece text rest := by
  induction text with
  | nil =>
      rintro ⟨run, front, hwhole, hfront⟩
      have hnone : afterPiece? piece [] = none := h
      obtain ⟨-, hwhole⟩ := List.append_eq_nil_iff.mp hwhole.symm
      rw [afterPiece?_eq_some_iff.mpr ⟨front, hwhole.symm, hfront⟩] at hnone
      cases hnone
  | cons char text ih =>
      rw [afterFirst?] at h
      rw [follows_cons_iff]
      split at h
      · cases h
      · next hfront =>
        rw [hfront]
        exact fun hfollows => hfollows.elim nofun (ih h)

/-- After the first occurrence comes what follows any other one, and more. -/
theorem afterFirst?_eq_some (h : afterFirst? piece text = some rest) :
    Follows piece text rest ∧ ∀ other, Follows piece text other → other <:+ rest := by
  induction text with
  | nil =>
      obtain ⟨front, hwhole, hfront⟩ := afterPiece?_eq_some_iff.mp (h : afterPiece? piece [] = _)
      refine ⟨⟨[], front, hwhole, hfront⟩, fun other hother => ?_⟩
      rw [List.suffix_nil.mp hother.suffix]
      exact List.nil_suffix
  | cons char text ih =>
      rw [afterFirst?] at h
      split at h
      · next rest' hfront =>
        obtain rfl := Option.some_inj.mp h
        refine ⟨follows_cons_iff.mpr (.inl hfront), fun other hother => ?_⟩
        rcases follows_cons_iff.mp hother with hother | ⟨run, front, rfl, hlater⟩
        · obtain rfl := Option.some_inj.mp (hfront.symm.trans hother)
          exact List.suffix_rfl
        · -- Both take as many characters as the piece has, and the other one begins later.
          obtain ⟨front', hwhole, hfront'⟩ := afterPiece?_eq_some_iff.mp hfront
          have hlengths := hfront'.length_eq.symm.trans hlater.length_eq
          have hsuffix : other <:+ char :: (run ++ (front ++ other)) :=
            ⟨char :: (run ++ front), by simp⟩
          have hsuffix' : rest' <:+ char :: (run ++ (front ++ other)) := ⟨front', hwhole.symm⟩
          refine List.suffix_of_suffix_length_le hsuffix hsuffix' ?_
          have htotal := congrArg List.length hwhole
          simp only [List.length_cons, List.length_append] at htotal
          omega
      · next hfront =>
        obtain ⟨hfollows, hlongest⟩ := ih h
        refine ⟨follows_cons_iff.mpr (.inr hfollows), fun other hother => ?_⟩
        rw [follows_cons_iff, hfront] at hother
        exact hlongest other (hother.resolve_left nofun)

/-- A piece stands at the end of a text if nothing follows one of its occurrences. -/
theorem endsWithPiece_iff : endsWithPiece piece text = true ↔ Follows piece text [] := by
  rw [endsWithPiece, Bool.and_eq_true, decide_eq_true_iff, Option.isSome_iff_exists]
  constructor
  · rintro ⟨hlength, rest, hrest⟩
    obtain ⟨front, hwhole, hfront⟩ := afterPiece?_eq_some_iff.mp hrest
    have htotal := congrArg List.length hwhole
    have hfrontLength := hfront.length_eq
    rw [List.length_drop, List.length_append] at htotal
    have hnil : rest = [] := List.length_eq_zero_iff.mp (by omega)
    subst hnil
    refine ⟨text.take (text.length - piece.length), front, ?_, hfront⟩
    rw [← hwhole, List.take_append_drop]
  · rintro ⟨run, front, rfl, hfront⟩
    have hlength := hfront.length_eq
    have hdrop : (run ++ (front ++ [])).length - piece.length = run.length := by
      simp only [List.length_append, List.length_nil]
      omega
    refine ⟨?_, [], ?_⟩
    · simp only [List.length_append, List.length_nil]
      omega
    · rw [hdrop, List.drop_left]
      exact afterPiece?_eq_some_iff.mpr ⟨front, rfl, hfront⟩

/-! ### All pieces -/

/-- A pattern of pieces with a star before each of them. -/
def starred (pieces : List (List Char)) : List Char := pieces.flatMap ('*' :: ·)

/-- A pattern is its first piece, and the others with a star before each of them. -/
theorem splitChars_star (pattern : List Char) :
    ∃ piece pieces, splitChars '*' pattern = piece :: pieces ∧ pattern = piece ++ starred pieces ∧
      ∀ part ∈ piece :: pieces, '*' ∉ part := by
  induction pattern with
  | nil => exact ⟨[], [], rfl, rfl, by simp⟩
  | cons letter pattern ih =>
      obtain ⟨piece, pieces, hsplit, hwhole, hfree⟩ := ih
      by_cases hstar : letter = '*'
      · refine ⟨[], piece :: pieces, ?_, ?_, ?_⟩
        · rw [splitChars, if_pos hstar, hsplit]
        · rw [hstar, hwhole]
          rfl
        · exact List.forall_mem_cons.mpr ⟨List.not_mem_nil, hfree⟩
      · obtain ⟨hpiece, hpieces⟩ := List.forall_mem_cons.mp hfree
        refine ⟨letter :: piece, pieces, ?_, ?_, ?_⟩
        · rw [splitChars, if_neg hstar, hsplit]
        · rw [hwhole, List.cons_append]
        · refine List.forall_mem_cons.mpr ⟨?_, hpieces⟩
          exact List.not_mem_cons_of_ne_of_not_mem (Ne.symm hstar) hpiece

/-- A star and a piece match up to the end of one of the occurrences of the piece. -/
theorem matches_star_append_iff {pattern : List Char} (hpiece : '*' ∉ piece) :
    Matches ('*' :: (piece ++ pattern)) text ↔
      ∃ rest, Follows piece text rest ∧ Matches pattern rest := by
  rw [Matches.star_iff]
  constructor
  · rintro ⟨run, tail, rfl, h⟩
    obtain ⟨front, rest, rfl, hfront, h⟩ := (Matches.append_iff hpiece).mp h
    exact ⟨rest, ⟨run, front, rfl, hfront⟩, h⟩
  · rintro ⟨rest, ⟨run, front, rfl, hfront⟩, h⟩
    exact ⟨run, _, rfl, (Matches.append_iff hpiece).mpr ⟨front, rest, rfl, hfront, h⟩⟩

theorem globPieces_iff {pieces : List (List Char)} (hfree : ∀ piece ∈ pieces, '*' ∉ piece) :
    globPieces pieces text = true ↔ Matches (starred pieces) text := by
  induction pieces generalizing text with
  | nil =>
      rw [globPieces, List.isEmpty_iff]
      exact Matches.nil_iff.symm
  | cons piece pieces ih =>
      obtain ⟨hpiece, hpieces⟩ := List.forall_mem_cons.mp hfree
      have hstarred : starred (piece :: pieces) = '*' :: (piece ++ starred pieces) := rfl
      rw [hstarred, matches_star_append_iff hpiece]
      cases pieces with
      | nil =>
          rw [globPieces, endsWithPiece_iff]
          refine ⟨fun h => ⟨[], h, .empty⟩, ?_⟩
          rintro ⟨rest, hrest, h⟩
          rwa [Matches.nil_iff.mp h] at hrest
      | cons next pieces =>
          rw [globPieces.eq_3 _ _ _ (List.cons_ne_nil next pieces)]
          constructor
          · intro h
            split at h
            · next rest hfirst => exact ⟨rest, (afterFirst?_eq_some hfirst).1, (ih hpieces).mp h⟩
            · cases h
          · -- The next piece has a star before it, so the longest rest is as good as any.
            rintro ⟨other, hother, h⟩
            split
            · next rest hfirst =>
              exact (ih hpieces).mpr (h.of_suffix ((afterFirst?_eq_some hfirst).2 other hother))
            · next hnone => exact absurd hother (not_follows_of_afterFirst? hnone other)

/-- Matching piece by piece decides what a pattern matches. -/
theorem globChars_iff (pattern text : List Char) :
    globChars pattern text = true ↔ Matches pattern text := by
  obtain ⟨piece, pieces, hsplit, hwhole, hfree⟩ := splitChars_star pattern
  obtain ⟨hpiece, hpieces⟩ := List.forall_mem_cons.mp hfree
  have hglob : globChars pattern text =
      (afterPiece? piece text).elim false (globPieces pieces) := by
    rw [globChars, hsplit]
    dsimp only
    cases afterPiece? piece text <;> rfl
  rw [hglob, hwhole, Matches.append_iff hpiece]
  constructor
  · intro h
    cases hfirst : afterPiece? piece text with
    | none =>
        rw [hfirst] at h
        cases h
    | some rest =>
        rw [hfirst] at h
        obtain ⟨front, rfl, hfront⟩ := afterPiece?_eq_some_iff.mp hfirst
        exact ⟨front, rest, rfl, hfront, (globPieces_iff hpieces).mp h⟩
  · rintro ⟨front, rest, rfl, hfront, h⟩
    rw [afterPiece?_eq_some_iff.mpr ⟨front, rfl, hfront⟩]
    exact (globPieces_iff hpieces).mpr h

end MediaCatalog.Text
