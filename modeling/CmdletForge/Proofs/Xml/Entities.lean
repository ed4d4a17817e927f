import Mathlib.Data.List.Basic
import CmdletForge.Xml.Entity

/-!
# CmdletForge.Proofs.Xml.Entities

Escaped texts.

1. An escaped text holds no markup (`not_mem_escape`).
2. Reading its entities gives back the text, whatever it is (`unescape_escape`).
-/

namespace CmdletForge.Xml

theorem not_mem_escape (cs : List Char) : '<' ∉ escape cs := by
  rw [escape, List.mem_flatMap]
  rintro ⟨c, -, hc⟩
  unfold escapeChar at hc
  repeat' split at hc
  all_goals first
    | (simp at hc; done)
    | exact absurd (List.mem_singleton.mp hc).symm (by assumption)

/-- Only the empty text is escaped to nothing. -/
theorem escape_eq_nil_iff (cs : List Char) : escape cs = [] ↔ cs = [] := by
  have hne : ∀ c, escapeChar c ≠ [] := by
    intro c
    unfold escapeChar
    repeat' split
    all_goals simp
  cases cs with
  | nil => simp [escape]
  | cons c cs => simp [escape, hne]

/-- A text without any of the five characters is written as it is. -/
theorem escape_eq_self {cs : List Char} (h : ∀ c ∈ cs, escapeChar c = [c]) : escape cs = cs := by
  rw [escape, List.flatMap_congr h, List.flatMap_singleton']

/-! ## Reading entities -/

/-- An entity is read up to its semicolon. -/
theorem unescapeFrom_entity {name : List Char} (hname : '&' ∉ name ∧ ';' ∉ name)
    (o start : Nat) (inside rest : List Char) :
    unescapeFrom o (some (start, inside)) (name ++ ';' :: rest) =
      (do
        let x ← entity start (inside.reverse ++ name)
        return x :: (← unescapeFrom (o + Text.width name + 1) none rest)) := by
  induction name generalizing o inside with
  | nil =>
    rw [List.nil_append, unescapeFrom, List.append_nil]
    rfl
  | cons c cs ih =>
    simp only [List.mem_cons, not_or] at hname
    rw [List.cons_append, unescapeFrom]
    simp only [if_neg (Ne.symm hname.1.1), if_neg (Ne.symm hname.2.1)]
    rw [ih ⟨hname.1.2, hname.2.2⟩, List.reverse_cons, List.append_assoc, Text.width_cons,
      Nat.add_assoc o]
    rfl

/-- A named entity stands for its character. -/
theorem unescapeFrom_named (name : List Char) (hname : '&' ∉ name ∧ ';' ∉ name)
    (hc : ∀ start, entity start name = .ok c) (o : Nat) (rest : List Char) :
    ∃ o', unescapeFrom o none (('&' :: name ++ [';']) ++ rest) =
      (unescapeFrom o' none rest).map (c :: ·) := by
  refine ⟨o + '&'.utf8Size + Text.width name + 1, ?_⟩
  rw [List.append_assoc, List.cons_append, unescapeFrom]
  simp only [if_true]
  rw [List.singleton_append, unescapeFrom_entity hname, List.reverse_nil, List.nil_append, hc]
  rfl

/-- A character is read back, however it is written. -/
theorem unescapeFrom_escapeChar (c : Char) (o : Nat) (rest : List Char) :
    ∃ o', unescapeFrom o none (escapeChar c ++ rest) =
      (unescapeFrom o' none rest).map (c :: ·) := by
  unfold escapeChar
  by_cases hamp : c = '&'
  · rw [if_pos hamp, hamp]
    exact unescapeFrom_named "amp".toList (by decide) (fun _ => rfl) o rest
  rw [if_neg hamp]
  by_cases hlt : c = '<'
  · rw [if_pos hlt, hlt]
    exact unescapeFrom_named "lt".toList (by decide) (fun _ => rfl) o rest
  rw [if_neg hlt]
  by_cases hgt : c = '>'
  · rw [if_pos hgt, hgt]
    exact unescapeFrom_named "gt".toList (by decide) (fun _ => rfl) o rest
  rw [if_neg hgt]
  by_cases hquot : c = '"'
  · rw [if_pos hquot, hquot]
    exact unescapeFrom_named "quot".toList (by decide) (fun _ => rfl) o rest
  rw [if_neg hquot]
  by_cases hapos : c = '\''
  · rw [if_pos hapos, hapos]
    exact unescapeFrom_named "apos".toList (by decide) (fun _ => rfl) o rest
  rw [if_neg hapos]
  refine ⟨o + c.utf8Size, ?_⟩
  rw [List.singleton_append, unescapeFrom]
  simp only [if_neg hamp]

/-- **Reading undoes writing.** -/
theorem unescape_escape (cs : List Char) : unescape (escape cs) = .ok cs := by
  have hfrom : ∀ o, unescapeFrom o none (escape cs) = .ok cs := by
    induction cs with
    | nil => exact fun _ => rfl
    | cons c cs ih =>
      intro o
      obtain ⟨o', h⟩ := unescapeFrom_escapeChar c o (escape cs)
      rw [escape, List.flatMap_cons, ← escape, h, ih]
      rfl
  exact hfrom 0

/-- A text without any of the five characters stands for itself. -/
theorem unescape_eq_self {cs : List Char} (h : ∀ c ∈ cs, escapeChar c = [c]) :
    unescape cs = .ok cs := by
  rw [← escape_eq_self h, unescape_escape, escape_eq_self h]

end CmdletForge.Xml
