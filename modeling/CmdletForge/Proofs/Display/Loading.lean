import CmdletForge.Proofs.Display.Steps

/-!
# CmdletForge.Proofs.Display.Loading

Loads of custom documents.

1. `Extends` says what no operation takes back: a list that is frozen stays as it is, and so do
   documents that are loaded; new ones rest on types to leave out that are frozen with them.
   One operation extends a collection (`extends_next`), so any number of them does.
2. A load that fails leaves everything as it was (`next_of_load_error`), since the files are
   read before anything is frozen or kept.
3. `loadLaw` puts this together for sequences: the first load that succeeds decides what all
   later ones answer, whatever has become of the files.
-/

namespace CmdletForge.Display

namespace Collection

open Question (ask)

/-! ## What stays -/

/-- What is settled in a collection is settled in a later one. -/
structure Extends (c c' : Collection) : Prop where
  snapshot_eq : ∀ l xs, (c.list l).snapshot = some xs → (c'.list l).snapshot = some xs
  loaded_eq : ∀ x, c.loaded = some x → c'.loaded = some x
  /-- New documents go on top of the types to leave out as they are frozen. -/
  excluded_eq : c.loaded = none → ∀ x, c'.loaded = some x →
    ∃ xs, c'.exclusions.snapshot = some xs ∧
      x.excluded = xs ++ x.documents.flatMap (·.typeNames)

theorem Extends.refl (c : Collection) : c.Extends c where
  snapshot_eq _ _ h := h
  loaded_eq _ h := h
  excluded_eq hnone x h := by
    rw [hnone] at h
    contradiction

theorem Extends.trans {c c' c'' : Collection} (h : c.Extends c') (h' : c'.Extends c'') :
    c.Extends c'' where
  snapshot_eq l xs hs := h'.snapshot_eq l xs (h.snapshot_eq l xs hs)
  loaded_eq x hx := h'.loaded_eq x (h.loaded_eq x hx)
  excluded_eq hnone x hx := by
    cases hc : c'.loaded with
    | none => exact h'.excluded_eq hc x hx
    | some y =>
      obtain rfl : y = x := Option.some.inj ((h'.loaded_eq y hc).symm.trans hx)
      obtain ⟨xs, hs, hexcluded⟩ := h.excluded_eq hnone y hc
      exact ⟨xs, h'.snapshot_eq .typesToExclude xs hs, hexcluded⟩

/-- **One operation takes nothing back.** -/
theorem extends_next (c : Collection) (op : Operation) : c.Extends (c.next op) where
  snapshot_eq l xs hs := by
    rw [list_next]
    change ((c.list l).lookIf _).snapshot = _
    rw [Memo.snapshot_lookIf, Memo.value_eq_of_snapshot hs, hs, ite_self]
  loaded_eq x hx := by rw [next, hx, Option.some_or]
  excluded_eq hnone x hx := by
    rw [next, hnone, Option.none_or, Option.map_eq_some_iff] at hx
    obtain ⟨documents, hfound, rfl⟩ := hx
    refine ⟨c.exclusions.value, ?_, rfl⟩
    have hasks : c.view.consults .typesToExclude op = true := by
      rw [View.consults, view, hnone]
      exact op.asksExclusions_of_found hfound
    change (c.exclusions.lookIf _).snapshot = _
    rw [Memo.snapshot_lookIf, hasks, if_pos rfl]

/-- Operations only ever extend a collection. -/
theorem extends_after (c : Collection) (ops : List Operation) : c.Extends (c.after ops) := by
  induction ops generalizing c with
  | nil => exact .refl c
  | cons op ops ih =>
    rw [after_cons]
    exact (c.extends_next op).trans (ih _)

/-- A collection extends all that it was before. -/
theorem extends_take (c : Collection) (ops : List Operation) (hij : i ≤ j) :
    (c.after (ops.take i)).Extends (c.after (ops.take j)) := by
  have hsplit : ops.take i ++ (ops.take j).drop i = ops.take j := by
    rw [← Nat.min_eq_left hij, ← List.take_take, Nat.min_eq_left hij, List.take_append_drop]
  rw [← hsplit, after_append]
  exact extends_after _ _

/-! ## One load -/

/-- What an operation finds in the files is what a load can read there. -/
theorem found_eq_some_iff {op : Operation} :
    op.found? = some documents ↔
      ∃ tree root filter, op = .load tree root filter ∧
        readDocuments tree (documentFolder root filter) = .ok documents := by
  constructor
  · intro h
    cases op with
    | load tree root filter =>
      refine ⟨tree, root, filter, rfl, ?_⟩
      rw [Operation.found?] at h
      cases hread : readDocuments tree (documentFolder root filter) with
      | error e =>
        rw [hread] at h
        contradiction
      | ok found =>
        rw [hread] at h
        exact congrArg Except.ok (Option.some.inj h)
    | _ => contradiction
  · rintro ⟨tree, root, filter, rfl, hread⟩
    rw [Operation.found?, hread]
    rfl

/-- Only loads answer with documents that they loaded, or with an error. -/
theorem reply_eq_loaded_iff (v : View) :
    v.reply op = .loaded result ↔
      ∃ tree root filter, op = .load tree root filter ∧ v.load tree root filter = result := by
  constructor
  · intro h
    cases op with
    | load tree root filter => exact ⟨tree, root, filter, rfl, Answer.loaded.inj h⟩
    | _ => contradiction
  · rintro ⟨tree, root, filter, rfl, rfl⟩
    rfl

section
variable (c : Collection) {tree : Files.Tree} {root : Path} {filter : Option String}

/-- A loaded collection answers with the documents it has. -/
theorem load_of_loaded (h : c.loaded = some x) :
    c.view.load tree root filter = .ok x.documents := by
  rw [View.load, view, h]
  rfl

/-- A collection that is not loaded reads the documents in the tree. -/
theorem load_of_not_loaded (h : c.loaded = none) :
    c.view.load tree root filter = readDocuments tree (documentFolder root filter) := by
  rw [View.load, view, h]
  rfl

/-- A load fails only when no documents are loaded yet. -/
theorem loaded_of_load_error (h : c.view.load tree root filter = .error e) : c.loaded = none := by
  cases hloaded : c.loaded with
  | none => rfl
  | some x =>
    rw [c.load_of_loaded hloaded] at h
    contradiction

/-- **A load that fails changes nothing.** -/
theorem next_of_load_error (h : c.view.load tree root filter = .error e) :
    c.next (.load tree root filter) = c := by
  have hfound : (Operation.load tree root filter).found? = none := by
    rw [Operation.found?, ← c.load_of_not_loaded (c.loaded_of_load_error h), h]
    rfl
  have hconsults : c.view.consults .typesToExclude (.load tree root filter) = false := by
    rw [View.consults, Operation.asksExclusions, hfound, Option.isSome_none, Bool.and_false]
  rw [next_of_question c ⟨fun _ => rfl, rfl, hfound⟩, hconsults]
  rfl

/-- Behind a load that succeeds, its documents are loaded: they were already, or they go on top
of the types to leave out. -/
theorem loaded_next_of_load_ok (h : c.view.load tree root filter = .ok documents) :
    ∃ x, (c.next (.load tree root filter)).loaded = some x ∧ x.documents = documents ∧
      (c.loaded = none →
        x.excluded = c.exclusions.value ++ documents.flatMap (·.typeNames)) := by
  rw [next]
  cases hloaded : c.loaded with
  | some x =>
    rw [c.load_of_loaded hloaded, Except.ok.injEq] at h
    exact ⟨x, rfl, h, fun hnone => by contradiction⟩
  | none =>
    rw [c.load_of_not_loaded hloaded] at h
    rw [found_eq_some_iff.mpr ⟨tree, root, filter, rfl, h⟩]
    exact ⟨_, rfl, rfl, fun _ => rfl⟩

/-- Documents become loaded by a load that answers with them. -/
theorem reply_of_loaded_next {op : Operation} (hnone : c.loaded = none)
    (h : (c.next op).loaded = some x) : c.view.reply op = .loaded (.ok x.documents) := by
  rw [next, hnone, Option.none_or, Option.map_eq_some_iff] at h
  obtain ⟨documents, hfound, rfl⟩ := h
  obtain ⟨tree, root, filter, rfl, hread⟩ := found_eq_some_iff.mp hfound
  rw [View.reply, c.load_of_not_loaded hnone, hread]

end

/-! ## Loads in a sequence -/

/-- The operation of a sequence that stands at the place `k` is a load that succeeds. -/
def LoadsAt (c : Collection) (ops : List Operation) (k : Nat) (documents : List CustomDocument) :
    Prop :=
  (c.answers ops)[k]? = some (.loaded (.ok documents))

/-- A load that succeeds, and none did before it. -/
def LoadsFirstAt (c : Collection) (ops : List Operation) (k : Nat)
    (documents : List CustomDocument) : Prop :=
  c.LoadsAt ops k documents ∧ ∀ j < k, ∀ others, ¬ c.LoadsAt ops j others

section
variable {c : Collection} {ops : List Operation} {i j : Nat}

/-- A load in a sequence, and what it answers. -/
theorem exists_load_of_answer (h : (c.answers ops)[i]? = some (.loaded result)) :
    ∃ tree root filter, ops[i]? = some (.load tree root filter) ∧
      (c.after (ops.take i)).view.load tree root filter = result := by
  obtain ⟨op, hop, hreply⟩ := getElem?_answers_eq_some_iff.mp h
  obtain ⟨tree, root, filter, rfl, hload⟩ := (reply_eq_loaded_iff _).mp hreply
  exact ⟨tree, root, filter, hop, hload⟩

/-- What a load answers in a sequence. -/
theorem getElem?_answers_load {tree : Files.Tree} {root : Path} {filter : Option String}
    (h : ops[i]? = some (.load tree root filter)) :
    (c.answers ops)[i]? =
      some (.loaded ((c.after (ops.take i)).view.load tree root filter)) := by
  rw [getElem?_answers, h]
  rfl

/-- Documents that were loaded stay. -/
theorem loaded_of_loadsAt (h : c.LoadsAt ops i documents) (hij : i < j) :
    ∃ x, (c.after (ops.take j)).loaded = some x ∧ x.documents = documents := by
  obtain ⟨tree, root, filter, hop, hload⟩ := exists_load_of_answer h
  obtain ⟨x, hx, hdocuments, -⟩ := loaded_next_of_load_ok _ hload
  rw [← after_take_succ hop] at hx
  exact ⟨x, (c.extends_take ops hij).loaded_eq x hx, hdocuments⟩

/-- As long as no documents are loaded, no load has succeeded. -/
theorem not_loadsAt_of_not_loaded (h : (c.after (ops.take i)).loaded = none) (hj : j < i) :
    ¬ c.LoadsAt ops j documents := by
  intro hloads
  obtain ⟨x, hx, -⟩ := loaded_of_loadsAt hloads hj
  rw [h] at hx
  contradiction

/-- **Documents come from the first load**: where documents are loaded, and were not at an
earlier time, the first load that succeeded stands in between. -/
theorem exists_loadsFirstAt (hij : i ≤ j) (hnone : (c.after (ops.take i)).loaded = none)
    (h : (c.after (ops.take j)).loaded = some x) :
    ∃ k, i ≤ k ∧ k < j ∧ c.LoadsFirstAt ops k x.documents := by
  induction hij with
  | refl =>
    rw [hnone] at h
    contradiction
  | @step j hij ih =>
    cases hj : (c.after (ops.take j)).loaded with
    | some y =>
      have hy := (c.extends_take ops (Nat.le_succ j)).loaded_eq y hj
      obtain rfl : y = x := Option.some.inj (hy.symm.trans h)
      obtain ⟨k, hik, hkj, hfirst⟩ := ih hj
      exact ⟨k, hik, Nat.lt_succ_of_lt hkj, hfirst⟩
    | none =>
      cases hop : ops[j]? with
      | none =>
        rw [List.take_add_one, hop, Option.toList_none, List.append_nil, hj] at h
        contradiction
      | some op =>
        rw [after_take_succ hop] at h
        have hloads : c.LoadsAt ops j x.documents :=
          getElem?_answers_eq_some_iff.mpr ⟨op, hop, reply_of_loaded_next _ hj h⟩
        exact ⟨j, hij, Nat.lt_succ_self j, hloads, fun k hk _ => not_loadsAt_of_not_loaded hj hk⟩

/-- Until a load succeeds, no documents are loaded. -/
theorem not_loaded_of_not_loadsAt (hnone : c.loaded = none)
    (h : ∀ j < i, ∀ documents, ¬ c.LoadsAt ops j documents) :
    (c.after (ops.take i)).loaded = none := by
  cases hi : (c.after (ops.take i)).loaded with
  | none => rfl
  | some x =>
    obtain ⟨k, -, hki, hloads, -⟩ := exists_loadsFirstAt (Nat.zero_le i) hnone hi
    exact absurd hloads (h k hki x.documents)

end

/-! ## The law of loads -/

/-- What is to be said of the loads among operations on a collection. -/
structure LoadLaw (c : Collection) (ops : List Operation) : Prop where
  /-- A load that fails leaves the collection as it was, and without documents. -/
  failed : ∀ i e, (c.answers ops)[i]? = some (.loaded (.error e)) →
    c.after (ops.take (i + 1)) = c.after (ops.take i) ∧
      (c.after (ops.take i)).loaded = none
  /-- Until a load succeeds, each one answers with what it finds in its own files. -/
  untilFirst : c.loaded = none → ∀ i tree root filter,
    ops[i]? = some (.load tree root filter) →
    (∀ j < i, ∀ documents, ¬ c.LoadsAt ops j documents) →
    (c.answers ops)[i]? = some (.loaded (readDocuments tree (documentFolder root filter)))
  /-- The first one that succeeds leaves out the types of its documents, on top of those that
  are listed for it. -/
  first : c.loaded = none → ∀ k documents, c.LoadsFirstAt ops k documents →
    (ask effectiveExclusions (c.after (ops.take (k + 1)))).1 =
      (ask exclusionSet (c.after (ops.take k))).1 ++ documents.flatMap (·.typeNames)
  /-- From a load that succeeds on, the documents and the types that are left out stay... -/
  settled : ∀ i documents, c.LoadsAt ops i documents → ∀ j, i < j →
    (c.after (ops.take j)).loaded.map (·.documents) = some documents ∧
      (ask effectiveExclusions (c.after (ops.take j))).1 =
        (ask effectiveExclusions (c.after (ops.take (i + 1)))).1
  /-- ...and each load succeeds with these documents, whatever it is to load from which files. -/
  later : ∀ i documents, c.LoadsAt ops i documents → ∀ j, i < j →
    ∀ tree root filter, ops[j]? = some (.load tree root filter) → c.LoadsAt ops j documents

/-- **The law of loads**: loads that fail change nothing, and the first one that succeeds
decides what all later ones answer. -/
theorem loadLaw (c : Collection) (ops : List Operation) : LoadLaw c ops where
  failed i e h := by
    obtain ⟨tree, root, filter, hop, hload⟩ := exists_load_of_answer h
    rw [after_take_succ hop]
    exact ⟨next_of_load_error _ hload, loaded_of_load_error _ hload⟩
  untilFirst hnone i tree root filter hop hbefore := by
    rw [getElem?_answers_load hop,
      load_of_not_loaded _ (not_loaded_of_not_loadsAt hnone hbefore)]
  first hnone k documents h := by
    obtain ⟨hloads, hbefore⟩ := h
    have hk := not_loaded_of_not_loadsAt hnone hbefore
    obtain ⟨tree, root, filter, hop, hload⟩ := exists_load_of_answer hloads
    obtain ⟨x, hx, -, hexcluded⟩ := loaded_next_of_load_ok _ hload
    rw [ask_effectiveExclusions, ask_exclusionSet, excluded, after_take_succ hop, hx,
      Option.map_some, Option.getD_some, hexcluded hk]
  settled i documents h j hij := by
    obtain ⟨x, hx, rfl⟩ := loaded_of_loadsAt h (Nat.lt_succ_self i)
    have hj := (c.extends_take ops hij).loaded_eq x hx
    rw [ask_effectiveExclusions, ask_effectiveExclusions, excluded, excluded, hx, hj]
    exact ⟨rfl, rfl⟩
  later i documents h j hij tree root filter hop := by
    obtain ⟨x, hx, rfl⟩ := loaded_of_loadsAt h hij
    rw [LoadsAt, getElem?_answers_load hop, load_of_loaded _ hx]

/-- A tree with one custom document below `/r`, or with a file in its place that is no text. -/
def shelf (text : Option String) : Files.Tree where
  root := .folder [("r", .folder [("CustomFormats", .folder [("B.ps1xml", .file text)])])]
  here := []

/-- The load in the middle is the first one that succeeds. -/
example :
    let c := ofManifest .blank
    let c' := c.after [.load (shelf none) "/r" none,
      .load (shelf "<TypeName>A.B</TypeName>") "/r" none, .load (shelf none) "/r" none]
    c.after [.load (shelf none) "/r" none] = c ∧ c'.loaded.map (·.excluded) = some ["A.B"] := by
  decide +kernel

end Collection

end CmdletForge.Display
