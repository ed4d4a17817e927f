import Mathlib.Data.List.Induction
import CmdletForge.Proofs.Display.Steps

/-!
# CmdletForge.Proofs.Display.Readings

What the questions about a collection are answered from, said without a state.

1. `viewAfter` is what a history of operations leaves to be seen.  A list is seen as it was when
   the first operation came that consults it (`firstAsk`), and as it is when there was none.
   Which operations consult it is decided by what the history before them shows: the types to
   keep are consulted by way of the types that are left out, and the namespaces by way of both.
2. `memoOf` is a list with the snapshot that goes with that.  One operation takes it to the next
   one (`memoOf_append_singleton`), so a collection goes along with its history
   (`after_ofManifest`).
3. `readingLaw` collects what follows: the answers, the moment at which each list is frozen, and
   the types that are left out once documents are loaded.
-/

namespace CmdletForge.Display

/-! ## Histories -/

def Manifest.list (m : Manifest) : ListName → List String
  | .namespacesToExclude => m.namespacesToExclude
  | .typesToInclude => m.typesToInclude
  | .typesToExclude => m.typesToExclude

/-- A list with all edits of a history. -/
def edited (m : Manifest) (l : ListName) (past : List Operation) : List String :=
  past.foldl (fun xs op => op.edit l xs) (m.list l)

/-- Where the first operation stands that asks, by the history before it; behind the last one
when none does. -/
def firstAsk (asks : List Operation → Operation → Bool) (past : List Operation) : Nat :=
  (List.range past.length).findIdx fun k => past[k]?.any (asks (past.take k))

/-- A list as the first operation that asks for it has it. -/
def seenBy (m : Manifest) (l : ListName) (asks : List Operation → Operation → Bool)
    (past : List Operation) : List String :=
  edited m l (past.take (firstAsk asks past))

/-- The documents of the first load that can read the files. -/
def documentsAfter (past : List Operation) : Option (List CustomDocument) :=
  past.findSome? Operation.found?

/-- The operations that ask for the types to leave out. -/
def asksExclusionsAfter (past : List Operation) : Operation → Bool :=
  Operation.asksExclusions (documentsAfter past).isSome

/-- The types that are left out: those that are listed, and those of the documents. -/
def excludedAfter (m : Manifest) (past : List Operation) : List String :=
  seenBy m .typesToExclude asksExclusionsAfter past ++
    ((documentsAfter past).getD []).flatMap (·.typeNames)

/-- The operations that ask for the types to keep. -/
def asksInclusionsAfter (m : Manifest) (past : List Operation) : Operation → Bool :=
  Operation.asksInclusions (excludedAfter m past)

/-- The operations that ask for the namespaces to leave out. -/
def asksNamespacesAfter (m : Manifest) (past : List Operation) : Operation → Bool :=
  Operation.asksNamespaces (excludedAfter m past)
    (seenBy m .typesToInclude (asksInclusionsAfter m) past)

/-- The operations that ask for a list. -/
def asksAfter (m : Manifest) : ListName → List Operation → Operation → Bool
  | .namespacesToExclude => asksNamespacesAfter m
  | .typesToInclude => asksInclusionsAfter m
  | .typesToExclude => asksExclusionsAfter

/-- What a history leaves to be seen. -/
def viewAfter (m : Manifest) (past : List Operation) : View where
  live l := edited m l past
  seen l := seenBy m l (asksAfter m l) past
  excluded := excludedAfter m past
  blocks := m.blocks ++ past.flatMap (·.newBlocks)
  documents := documentsAfter past

/-- The operations that ask for a list are those that consult it. -/
theorem consults_viewAfter (m : Manifest) (l : ListName) (past : List Operation) :
    (viewAfter m past).consults l = asksAfter m l past := by
  cases l <;> rfl

/-! ## The first operation that asks -/

section
variable {asks : List Operation → Operation → Bool} {past : List Operation}

theorem firstAsk_le_length : firstAsk asks past ≤ past.length := by
  have h : firstAsk asks past ≤ (List.range past.length).length := List.findIdx_le_length
  rwa [List.length_range] at h

/-- The first position that asks: it does, and none before it. -/
theorem firstAsk_eq_iff (hk : k < past.length) :
    firstAsk asks past = k ↔
      past[k]?.any (asks (past.take k)) = true ∧
        ∀ j < k, past[j]?.any (asks (past.take j)) = false := by
  rw [firstAsk, List.findIdx_eq (by simpa using hk)]
  simp only [List.getElem_range]

/-- Nothing has asked exactly when no position does. -/
theorem firstAsk_eq_length_iff :
    firstAsk asks past = past.length ↔
      ∀ j < past.length, past[j]?.any (asks (past.take j)) = false := by
  have h : firstAsk asks past = (List.range past.length).length ↔
      ∀ j ∈ List.range past.length, past[j]?.any (asks (past.take j)) = false :=
    List.findIdx_eq_length
  simpa only [List.length_range, List.mem_range] using h

/-- Whether an operation asks does not depend on later ones. -/
theorem any_append_singleton (op : Operation) (hk : k < past.length) :
    (past ++ [op])[k]?.any (asks ((past ++ [op]).take k)) = past[k]?.any (asks (past.take k)) := by
  rw [List.getElem?_append_left hk, List.take_append_of_le_length (Nat.le_of_lt hk)]

theorem any_append_singleton_self (op : Operation) :
    (past ++ [op])[past.length]?.any (asks ((past ++ [op]).take past.length)) = asks past op := by
  rw [List.getElem?_concat_length, List.take_left, Option.any_some]

/-- One more operation is the first that asks when none did before. -/
theorem firstAsk_append_singleton (op : Operation) :
    firstAsk asks (past ++ [op]) =
      if firstAsk asks past < past.length then firstAsk asks past
      else if asks past op then past.length else past.length + 1 := by
  have hlength : (past ++ [op]).length = past.length + 1 := List.length_append
  split
  next hlt =>
    obtain ⟨hasks, hbefore⟩ := (firstAsk_eq_iff hlt).mp rfl
    rw [firstAsk_eq_iff (by omega), any_append_singleton op hlt]
    exact ⟨hasks, fun j hj => by rw [any_append_singleton op (Nat.lt_trans hj hlt), hbefore j hj]⟩
  next hge =>
    have hend : firstAsk asks past = past.length :=
      Nat.le_antisymm firstAsk_le_length (Nat.le_of_not_lt hge)
    have hbefore : ∀ j < past.length,
        (past ++ [op])[j]?.any (asks ((past ++ [op]).take j)) = false := fun j hj => by
      rw [any_append_singleton op hj, firstAsk_eq_length_iff.mp hend j hj]
    split
    next hasks =>
      rw [firstAsk_eq_iff (by omega), any_append_singleton_self]
      exact ⟨hasks, hbefore⟩
    next hasks =>
      rw [← hlength, firstAsk_eq_length_iff]
      intro j hj
      rcases Nat.lt_or_eq_of_le (Nat.le_of_lt_succ (hlength ▸ hj)) with hlt | rfl
      · exact hbefore j hlt
      · rw [any_append_singleton_self]
        exact Bool.eq_false_iff.mpr hasks

/-- After one more operation something has asked if it had before or the operation does. -/
theorem firstAsk_append_singleton_lt_iff (op : Operation) :
    firstAsk asks (past ++ [op]) < (past ++ [op]).length ↔
      firstAsk asks past < past.length ∨ asks past op = true := by
  rw [firstAsk_append_singleton, List.length_append, List.length_singleton]
  split
  next hlt => simp [hlt, Nat.lt_succ_of_lt hlt]
  next hge => split <;> simp [*]

/-- A list that was asked for is seen as before. -/
theorem seenBy_append_singleton (m : Manifest) (l : ListName) {op : Operation}
    (h : firstAsk asks past < past.length ∨ asks past op = true) :
    seenBy m l asks (past ++ [op]) = seenBy m l asks past := by
  rw [seenBy, seenBy, firstAsk_append_singleton]
  split
  next hlt => rw [List.take_append_of_le_length (Nat.le_of_lt hlt)]
  next hge =>
    have hasks := h.resolve_left hge
    have hend : firstAsk asks past = past.length :=
      Nat.le_antisymm firstAsk_le_length (Nat.le_of_not_lt hge)
    rw [if_pos hasks, List.take_left, hend, List.take_length]

end

/-! ## Lists with their snapshots -/

/-- A list behind a history: with a snapshot once an operation asked for it. -/
def memoOf (m : Manifest) (l : ListName) (asks : List Operation → Operation → Bool)
    (past : List Operation) : Memo where
  live := edited m l past
  snapshot := if firstAsk asks past < past.length then some (seenBy m l asks past) else none

section
variable (m : Manifest) (l : ListName) (asks : List Operation → Operation → Bool)
  (past : List Operation)

theorem edited_append_singleton (op : Operation) :
    edited m l (past ++ [op]) = op.edit l (edited m l past) := by
  rw [edited, List.foldl_append]
  rfl

/-- Nobody asked for a list: it is seen as it is. -/
theorem seenBy_eq_edited (h : ¬ firstAsk asks past < past.length) :
    seenBy m l asks past = edited m l past := by
  rw [seenBy, List.take_of_length_le (Nat.le_of_not_lt h)]

theorem value_memoOf : (memoOf m l asks past).value = seenBy m l asks past := by
  unfold memoOf Memo.value
  split
  next => rfl
  next hge => exact (seenBy_eq_edited m l asks past hge).symm

/-- The step of the simulation, for one list. -/
theorem memoOf_append_singleton (op : Operation) :
    memoOf m l asks (past ++ [op]) =
      ((memoOf m l asks past).lookIf (asks past op)).edit (op.edit l) := by
  have hlive : (memoOf m l asks (past ++ [op])).live =
      (((memoOf m l asks past).lookIf (asks past op)).edit (op.edit l)).live := by
    simp [memoOf, Memo.edit, edited_append_singleton]
  have hsnapshot : (memoOf m l asks (past ++ [op])).snapshot =
      ((memoOf m l asks past).lookIf (asks past op)).snapshot := by
    rw [Memo.snapshot_lookIf, value_memoOf]
    simp only [memoOf, firstAsk_append_singleton_lt_iff]
    by_cases hasks : asks past op = true
    · rw [if_pos (.inr hasks), if_pos hasks, seenBy_append_singleton m l (.inr hasks)]
    · by_cases hlt : firstAsk asks past < past.length
      · rw [if_pos (.inl hlt), if_neg hasks, if_pos hlt, seenBy_append_singleton m l (.inl hlt)]
      · rw [if_neg (by simp [hlt, hasks]), if_neg hasks, if_neg hlt]
  exact congrArg₂ Memo.mk hlive hsnapshot

end

/-! ## Collections along their histories -/

/-- The collection that a history makes of a manifest. -/
def stateAfter (m : Manifest) (past : List Operation) : Collection where
  namespaces := memoOf m .namespacesToExclude (asksNamespacesAfter m) past
  inclusions := memoOf m .typesToInclude (asksInclusionsAfter m) past
  exclusions := memoOf m .typesToExclude asksExclusionsAfter past
  blocks := m.blocks ++ past.flatMap (·.newBlocks)
  loaded := (documentsAfter past).map fun documents => ⟨documents, excludedAfter m past⟩

theorem documentsAfter_append_singleton (past : List Operation) (op : Operation) :
    documentsAfter (past ++ [op]) = (documentsAfter past).or op.found? := by
  rw [documentsAfter, List.findSome?_append, ← documentsAfter, List.findSome?_singleton]

/-- Documents are loaded only behind an operation that asked for the types to leave out. -/
theorem firstAsk_lt_of_documentsAfter {past : List Operation}
    (h : (documentsAfter past).isSome) : firstAsk asksExclusionsAfter past < past.length := by
  induction past using List.reverseRecOn with
  | nil => contradiction
  | append_singleton past op ih =>
    rw [firstAsk_append_singleton_lt_iff]
    cases hd : documentsAfter past with
    | some documents => exact .inl (ih (by rw [hd]; rfl))
    | none =>
      rw [documentsAfter_append_singleton, hd, Option.none_or, Option.isSome_iff_exists] at h
      obtain ⟨documents, hfound⟩ := h
      right
      rw [asksExclusionsAfter, hd]
      exact op.asksExclusions_of_found hfound

section
variable (m : Manifest) (past : List Operation)

/-- Each list is in the state that the reference gives. -/
theorem list_stateAfter (l : ListName) :
    (stateAfter m past).list l = memoOf m l (asksAfter m l) past := by
  cases l <;> rfl

/-- A collection shows what its history leaves to be seen. -/
theorem view_stateAfter : (stateAfter m past).view = viewAfter m past := by
  have hlive : (stateAfter m past).view.live = (viewAfter m past).live := by
    funext l
    cases l <;> rfl
  have hseen : (stateAfter m past).view.seen = (viewAfter m past).seen := by
    funext l
    cases l <;> exact value_memoOf _ _ _ _
  have hexcluded : (stateAfter m past).excluded = excludedAfter m past := by
    rw [Collection.excluded, stateAfter, value_memoOf, excludedAfter]
    cases documentsAfter past <;> simp
  have hdocuments : (stateAfter m past).loaded.map (·.documents) = documentsAfter past := by
    rw [stateAfter, Option.map_map]
    exact Option.map_id'
  exact View.ext hlive hseen hexcluded rfl hdocuments

/-- The types that are left out stay the same once documents are loaded. -/
theorem excludedAfter_append_singleton (op : Operation) (h : (documentsAfter past).isSome) :
    excludedAfter m (past ++ [op]) = excludedAfter m past := by
  obtain ⟨documents, hd⟩ := Option.isSome_iff_exists.mp h
  rw [excludedAfter, excludedAfter, documentsAfter_append_singleton, hd, Option.some_or,
    seenBy_append_singleton m _ (.inl (firstAsk_lt_of_documentsAfter h))]

/-- The first documents go on top of the types to leave out as they are seen. -/
theorem excludedAfter_of_found {op : Operation} (h : documentsAfter past = none)
    (hfound : op.found? = some documents) :
    excludedAfter m (past ++ [op]) =
      seenBy m .typesToExclude asksExclusionsAfter past ++ documents.flatMap (·.typeNames) := by
  have hasks : asksExclusionsAfter past op = true := by
    rw [asksExclusionsAfter, h]
    exact op.asksExclusions_of_found hfound
  rw [excludedAfter, documentsAfter_append_singleton, h, hfound,
    seenBy_append_singleton m _ (.inr hasks)]
  rfl

theorem loaded_append_singleton (op : Operation) :
    (stateAfter m (past ++ [op])).loaded = ((stateAfter m past).next op).loaded := by
  simp only [Collection.next, stateAfter, documentsAfter_append_singleton, value_memoOf]
  cases hd : documentsAfter past with
  | some documents =>
    rw [excludedAfter_append_singleton m past op (by rw [hd]; rfl)]
    rfl
  | none =>
    cases hfound : op.found? with
    | some documents => rw [excludedAfter_of_found m past hd hfound]; rfl
    | none => rfl

/-- **The step of the simulation**: a collection goes along with its history. -/
theorem next_stateAfter (op : Operation) :
    (stateAfter m past).next op = stateAfter m (past ++ [op]) := by
  have hloaded := loaded_append_singleton m past op
  have hblocks : m.blocks ++ (past ++ [op]).flatMap (·.newBlocks) =
      m.blocks ++ past.flatMap (·.newBlocks) ++ op.newBlocks := by
    rw [List.flatMap_append, List.flatMap_singleton, List.append_assoc]
  simp only [Collection.next, view_stateAfter, consults_viewAfter] at hloaded ⊢
  simp only [stateAfter, memoOf_append_singleton, hblocks] at hloaded ⊢
  rw [hloaded]
  rfl

end

/-- **A collection is its history**: what operations made of a manifest. -/
theorem after_ofManifest (m : Manifest) (past : List Operation) :
    (Collection.ofManifest m).after past = stateAfter m past := by
  induction past using List.reverseRecOn with
  | nil =>
    simp only [stateAfter, List.flatMap_nil, List.append_nil]
    rfl
  | append_singleton past op ih =>
    rw [Collection.after_append_singleton, ih, next_stateAfter]

/-! ## The law of readings -/

/-- The operation of a sequence that stands at the place `k` consults a list. -/
def ConsultsAt (m : Manifest) (ops : List Operation) (l : ListName) (k : Nat) : Prop :=
  ∃ op, ops[k]? = some op ∧ (viewAfter m (ops.take k)).consults l op = true

/-- Whether a position consults a list depends on the operations before it only. -/
theorem consultsAt_take_iff (m : Manifest) (ops : List Operation) (l : ListName) (hk : k < i) :
    (ops.take i)[k]?.any (asksAfter m l ((ops.take i).take k)) = true ↔ ConsultsAt m ops l k := by
  rw [List.getElem?_take_of_lt hk, List.take_take, Nat.min_eq_left (Nat.le_of_lt hk),
    Option.any_eq_true, ConsultsAt]
  simp only [consults_viewAfter]

theorem ConsultsAt.lt_length {m : Manifest} {ops : List Operation} {l : ListName}
    (h : ConsultsAt m ops l k) : k < ops.length := by
  obtain ⟨op, hop, -⟩ := h
  exact (List.getElem?_eq_some_iff.mp hop).1

section
variable {m : Manifest} {ops : List Operation} {l : ListName}

/-- The first operation that asks for a list is the first that consults it. -/
theorem firstAsk_of_consultsAt (h : ConsultsAt m ops l k)
    (hfirst : ∀ j < k, ¬ ConsultsAt m ops l j) (hi : k < i) :
    firstAsk (asksAfter m l) (ops.take i) = k := by
  have hk : k < (ops.take i).length := by
    rw [List.length_take]
    exact Nat.lt_min.mpr ⟨hi, h.lt_length⟩
  rw [firstAsk_eq_iff hk, consultsAt_take_iff m ops l hi]
  refine ⟨h, fun j hj => ?_⟩
  rw [← Bool.not_eq_true, consultsAt_take_iff m ops l (Nat.lt_trans hj hi)]
  exact hfirst j hj

/-- Without a consultation the first one is past the end. -/
theorem firstAsk_of_not_consultsAt (h : ∀ j < i, ¬ ConsultsAt m ops l j) :
    firstAsk (asksAfter m l) (ops.take i) = (ops.take i).length := by
  rw [firstAsk_eq_length_iff]
  intro j hj
  have hji : j < i := Nat.lt_of_lt_of_le hj (List.length_take_le _ _)
  rw [← Bool.not_eq_true, consultsAt_take_iff m ops l hji]
  exact h j hji

/-- **The moment that counts**: behind the first operation that consults a list, the list is
seen as it was then, whatever becomes of it. -/
theorem seen_of_consultsAt (h : ConsultsAt m ops l k) (hfirst : ∀ j < k, ¬ ConsultsAt m ops l j)
    (hi : k < i) : (viewAfter m (ops.take i)).seen l = edited m l (ops.take k) := by
  change seenBy m l (asksAfter m l) (ops.take i) = _
  rw [seenBy, firstAsk_of_consultsAt h hfirst hi, List.take_take,
    Nat.min_eq_left (Nat.le_of_lt hi)]

/-- A list that no operation consulted is seen as it is. -/
theorem seen_of_not_consultsAt (h : ∀ j < i, ¬ ConsultsAt m ops l j) :
    (viewAfter m (ops.take i)).seen l = edited m l (ops.take i) :=
  seenBy_eq_edited m l _ _ (by rw [firstAsk_of_not_consultsAt h]; exact Nat.lt_irrefl _)

/-- A list is frozen as the first operation that consulted it saw it. -/
theorem snapshot_of_consultsAt (h : ConsultsAt m ops l k)
    (hfirst : ∀ j < k, ¬ ConsultsAt m ops l j) :
    (((Collection.ofManifest m).after ops).list l).snapshot =
      some (edited m l (ops.take k)) := by
  have hask : firstAsk (asksAfter m l) ops = k := by
    have := firstAsk_of_consultsAt h hfirst h.lt_length
    rwa [List.take_length] at this
  rw [after_ofManifest, list_stateAfter, memoOf, seenBy, hask, if_pos h.lt_length]

/-- A list that is never consulted is never frozen. -/
theorem snapshot_of_not_consultsAt (h : ∀ k, ¬ ConsultsAt m ops l k) :
    (((Collection.ofManifest m).after ops).list l).snapshot = none := by
  have hask : firstAsk (asksAfter m l) ops = ops.length := by
    have := firstAsk_of_not_consultsAt fun j (_ : j < ops.length) => h j
    rwa [List.take_length] at this
  rw [after_ofManifest, list_stateAfter, memoOf, hask, if_neg (Nat.lt_irrefl _)]

end

/-- What is to be said of the answers to operations on the rules of a manifest. -/
structure ReadingLaw (m : Manifest) (ops : List Operation) : Prop where
  /-- Every answer is what the history before it leaves to be seen. -/
  answers_eq : ∀ i, ((Collection.ofManifest m).answers ops)[i]? =
    ops[i]?.map (viewAfter m (ops.take i)).reply
  /-- Edits before the first operation that consults a list are seen... -/
  seen_before : ∀ l i, (∀ j < i, ¬ ConsultsAt m ops l j) →
    (viewAfter m (ops.take i)).seen l = edited m l (ops.take i)
  /-- ...and later ones are not. -/
  seen_after : ∀ l k, ConsultsAt m ops l k → (∀ j < k, ¬ ConsultsAt m ops l j) →
    ∀ i, k < i → (viewAfter m (ops.take i)).seen l = edited m l (ops.take k)
  /-- A list is frozen as the first operation that consults it sees it... -/
  frozen : ∀ l k, ConsultsAt m ops l k → (∀ j < k, ¬ ConsultsAt m ops l j) →
    (((Collection.ofManifest m).after ops).list l).snapshot = some (edited m l (ops.take k))
  /-- ...and is not frozen by any other. -/
  notFrozen : ∀ l, (∀ k, ¬ ConsultsAt m ops l k) →
    (((Collection.ofManifest m).after ops).list l).snapshot = none
  /-- Once documents are loaded, the types to leave out are frozen, and those of the documents
  are left out as well. -/
  excluded_iff : ∀ loaded, ((Collection.ofManifest m).after ops).loaded = some loaded →
    ∃ listed, ((Collection.ofManifest m).after ops).exclusions.snapshot = some listed ∧
      ∀ typeName, typeName ∈ (Question.ask Collection.effectiveExclusions
          ((Collection.ofManifest m).after ops)).1 ↔
        typeName ∈ listed ∨ ∃ document ∈ loaded.documents, typeName ∈ document.typeNames

/-- A type in an internal namespace leaves the namespaces open to edits... -/
example :
    (viewAfter .blank [.typeEligible "A.Internal.B", .push .namespacesToExclude "A"]).isEligible
      "A.C" = false := by
  decide +kernel

/-- ...and any other type freezes them. -/
example :
    (viewAfter .blank [.typeEligible "A.B", .push .namespacesToExclude "A"]).isEligible
      "A.C" = true := by
  decide +kernel

end CmdletForge.Display
