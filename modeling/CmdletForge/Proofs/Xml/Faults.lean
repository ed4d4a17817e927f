import CmdletForge.Proofs.Xml.Pieces

/-!
# CmdletForge.Proofs.Xml.Faults

Texts that are read up to a fault.

1. The character that makes a fault adds no piece, and no piece comes behind it
   (`exists_front_of_run`).
2. So the pieces of any text make its beginning (`exists_covers_pieces`).
-/

namespace CmdletForge.Xml

namespace Scan

variable {s : Scan} {c : Char}

theorem step_of_failed (h : s.mode = .failed) (c : Char) :
    (s.step c).mode = .failed ∧ (s.step c).pieces = s.pieces := by
  simp only [step, h, and_self]

theorem fail_of_close (h : (s.close e).fault ≠ none) (hs : s.fault = none) :
    (s.close e).mode = .failed ∧ (s.close e).pieces = s.pieces := by
  cases e with
  | finish name =>
    cases hes : s.elements with
    | nil =>
      simp only [close, hes]
      exact ⟨rfl, rfl⟩
    | cons expected outer =>
      simp only [close, hes] at h ⊢
      split at h
      next => exact absurd hs h
      next hname =>
        rw [if_neg hname]
        exact ⟨rfl, rfl⟩
  | _ => exact absurd hs h

/-- A character that makes a fault ends the reading, and adds no piece. -/
theorem fail_of_step (h : (s.step c).fault ≠ none) (hs : s.fault = none) :
    (s.step c).mode = .failed ∧ (s.step c).pieces = s.pieces := by
  cases hmode : s.mode with
  | text pending =>
    refine absurd ?_ h
    rw [step, hmode, ← hs]
    dsimp only
    split <;> [split; skip] <;> rfl
  | failed => exact step_of_failed hmode c
  | _ =>
    have hm : s.mode.IsMarkup := by rw [hmode]; trivial
    cases hturn : s.mode.turn c with
    | go m =>
      rw [step_of_go hm hturn] at h
      exact absurd hs h
    | close e =>
      rw [step_of_close hm hturn] at h ⊢
      exact fail_of_close h hs
    | fail =>
      obtain ⟨t, offset, hstep⟩ := step_of_fail hm hturn
      rw [hstep]
      exact ⟨rfl, rfl⟩

/-- A fault at the end of a text adds no piece either. -/
theorem pieces_finish_of_fault (h : s.finish.fault ≠ none)
    (hs : s.mode = .failed ∨ s.fault = none) : s.finish.pieces = s.pieces := by
  cases hmode : s.mode with
  | text pending =>
    rcases hs with hfailed | hfault
    · rw [hmode] at hfailed
      contradiction
    · rw [← List.reverse_reverse pending] at hmode
      exact absurd ((finish_of_text hmode).2.trans hfault) h
  | _ => simp only [finish, hmode, fail]

end Scan

/-- **The part of a text that is read without a fault**; behind it no more pieces come. -/
theorem exists_front_of_run (cs : List Char) :
    ∃ front, front <+: cs ∧ (Scan.blank.run front).fault = none ∧
      (Scan.blank.run cs).pieces = (Scan.blank.run front).pieces ∧
        ((Scan.blank.run cs).mode = .failed ∨ (Scan.blank.run cs).fault = none) := by
  -- on the last character: it is read behind a fault, or makes one, or is read without one
  induction cs using List.reverseRecOn with
  | nil => exact ⟨[], List.prefix_rfl, rfl, rfl, .inr rfl⟩
  | append_singleton cs c ih =>
    obtain ⟨front, hfront, hnone, hpieces, hmode⟩ := ih
    have hrun : Scan.blank.run (cs ++ [c]) = (Scan.blank.run cs).step c := Scan.run_append _ cs [c]
    rw [hrun]
    rcases hmode with hfailed | hfault
    · obtain ⟨hmode, hsame⟩ := Scan.step_of_failed hfailed c
      exact ⟨front, hfront.trans (List.prefix_append _ _), hnone, hsame.trans hpieces, .inl hmode⟩
    · by_cases hstep : ((Scan.blank.run cs).step c).fault = none
      · exact ⟨cs ++ [c], List.prefix_rfl, hrun ▸ hstep, by rw [hrun], .inr hstep⟩
      · obtain ⟨hmode, hsame⟩ := Scan.fail_of_step hstep hfault
        exact ⟨cs, List.prefix_append _ _, hfault, hsame, .inl hmode⟩

/-- The pieces that have been read without a fault make the beginning of the text. -/
theorem exists_covers_of_run {cs : List Char} (h : (Scan.blank.run cs).fault = none) :
    ∃ front, front <+: cs ∧ Covers 0 (Scan.blank.run cs).pieces.reverse front := by
  rcases partition_of_run h with
    @⟨es, ts, gap, hcs, hts, hnest, hgap⟩ | @⟨es, m, ts, gap, read, hcs, hts, hnest, hgap, hread⟩
  · refine ⟨charsOf ts, hcs ▸ List.prefix_append _ _, ?_⟩
    rw [hcs, run_blank_tokens hts hnest, Scan.run_between_gap hgap, List.reverse_reverse]
    exact covers_piecesOf hts 0
  · refine ⟨charsOf ts ++ gap, ⟨'<' :: read, by rw [hcs, List.append_assoc]⟩, ?_⟩
    rw [hcs, run_blank_inside hts hnest hgap hread, List.reverse_append, List.reverse_reverse,
      List.reverse_reverse]
    have hgap := covers_gapPieces (Text.width (charsOf ts)) gap
    exact covers_append.mpr ⟨_, _, rfl, covers_piecesOf hts 0, by rwa [Nat.zero_add]⟩

/-- **The pieces of a text make its beginning**, also when a fault ends them early. -/
theorem exists_covers_pieces (cs : List Char) :
    ∃ front, front <+: dropMark cs ∧ Covers 0 (pieces cs).1 front := by
  by_cases hfault : (pieces cs).2 = none
  · exact ⟨dropMark cs, List.prefix_rfl, covers_pieces hfault⟩
  · obtain ⟨front, hfront, hnone, hpieces, hmode⟩ := exists_front_of_run (dropMark cs)
    obtain ⟨part, hpart, hcovers⟩ := exists_covers_of_run hnone
    refine ⟨part, hpart.trans hfront, ?_⟩
    rw [pieces, Scan.pieces_finish_of_fault hfault hmode, hpieces]
    exact hcovers

end CmdletForge.Xml
