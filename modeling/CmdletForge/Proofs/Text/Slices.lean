import CmdletForge.Text.Utf8

/-!
# CmdletForge.Proofs.Text.Slices

Slices by byte offsets, as parts of a text.

There is a slice exactly when characters begin at both offsets (`sliceBytes_eq_some_iff`), and
then it is the part in between: no later proof counts bytes.
-/

namespace CmdletForge.Text

theorem width_eq_zero_iff (cs : List Char) : width cs = 0 ↔ cs = [] := by
  cases cs with
  | nil => simp
  | cons c cs => simp [Nat.ne_of_gt c.utf8Size_pos]

/-- What is left behind so many bytes follows a front of that width. -/
theorem dropBytes?_eq_some_iff {n : Nat} {cs rest : List Char} :
    dropBytes? n cs = some rest ↔ ∃ front, cs = front ++ rest ∧ width front = n := by
  fun_induction dropBytes? n cs with
  | case1 cs =>
    constructor
    · intro h
      exact ⟨[], by simpa using h, rfl⟩
    · rintro ⟨front, rfl, h⟩
      rw [(width_eq_zero_iff front).mp h, List.nil_append]
  | case2 n => 
    constructor
    · intro h
      contradiction
    · rintro ⟨front, hcs, h⟩
      rw [(List.append_eq_nil_iff.mp hcs.symm).1] at h
      contradiction
  | case3 n c cs hle ih =>
    rw [ih]
    clear ih
    constructor
    · rintro ⟨front, rfl, h⟩
      exact ⟨c :: front, rfl, by rw [width_cons]; omega⟩
    · rintro ⟨front, hcs, h⟩
      cases front with
      | nil => contradiction
      | cons d front =>
        obtain ⟨rfl, rfl⟩ := List.cons.inj hcs
        exact ⟨front, rfl, by rw [width_cons] at h; omega⟩
  | case4 n c cs hgt =>
    constructor
    · intro h
      contradiction
    · rintro ⟨front, hcs, h⟩
      cases front with
      | nil => contradiction
      | cons d front =>
        obtain ⟨rfl, rfl⟩ := List.cons.inj hcs
        rw [width_cons] at h
        omega

/-- The first bytes are the front of that width. -/
theorem takeBytes?_eq_some_iff {n : Nat} {cs front : List Char} :
    takeBytes? n cs = some front ↔ ∃ rest, cs = front ++ rest ∧ width front = n := by
  fun_induction takeBytes? n cs generalizing front with
  | case1 cs =>
    constructor
    · intro h
      obtain rfl := Option.some.inj h
      exact ⟨cs, rfl, rfl⟩
    · rintro ⟨rest, -, h⟩
      rw [(width_eq_zero_iff front).mp h]
  | case2 n =>
    constructor
    · intro h
      contradiction
    · rintro ⟨rest, hcs, h⟩
      rw [(List.append_eq_nil_iff.mp hcs.symm).1] at h
      contradiction
  | case3 n c cs hle ih =>
    simp only [Option.map_eq_some_iff, ih]
    clear ih
    constructor
    · rintro ⟨front, ⟨rest, rfl, h⟩, rfl⟩
      exact ⟨rest, rfl, by rw [width_cons]; omega⟩
    · rintro ⟨rest, hcs, h⟩
      cases front with
      | nil => contradiction
      | cons d front =>
        obtain ⟨rfl, rfl⟩ := List.cons.inj hcs
        exact ⟨front, ⟨rest, rfl, by rw [width_cons] at h; omega⟩, rfl⟩
  | case4 n c cs hgt =>
    constructor
    · intro h
      contradiction
    · rintro ⟨rest, hcs, h⟩
      cases front with
      | nil => contradiction
      | cons d front =>
        obtain ⟨rfl, rfl⟩ := List.cons.inj hcs
        rw [width_cons] at h
        omega

/-- **What a slice is**: a part of the text that begins and ends at the given offsets. -/
theorem sliceBytes_eq_some_iff {cs part : List Char} {start stop : Nat} :
    sliceBytes cs start stop = some part ↔
      ∃ front rest, cs = front ++ part ++ rest ∧ width front = start ∧
        width (front ++ part) = stop := by
  unfold sliceBytes
  split
  next hle =>
    simp only [Option.bind_eq_some_iff, dropBytes?_eq_some_iff, takeBytes?_eq_some_iff]
    constructor
    · rintro ⟨_, ⟨front, rfl, hfront⟩, rest, rfl, hpart⟩
      refine ⟨front, rest, by rw [List.append_assoc], hfront, ?_⟩
      rw [width_append]
      omega
    · rintro ⟨front, rest, rfl, hfront, hstop⟩
      rw [width_append] at hstop
      exact ⟨part ++ rest, ⟨front, by rw [List.append_assoc], hfront⟩, rest, rfl, by omega⟩
  next hgt =>
    constructor
    · intro h
      contradiction
    · rintro ⟨front, rest, -, hfront, hstop⟩
      rw [width_append] at hstop
      omega

end CmdletForge.Text
