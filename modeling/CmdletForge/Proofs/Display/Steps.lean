import CmdletForge.Display.Operation

/-!
# CmdletForge.Proofs.Display.Steps

What one operation does with a collection.

1. Questions are programs that look at a list when they need it.  A `View` is what their
   answers depend on: `View.reply` is the answer to an operation and `View.consults` says which
   lists it looks at on the way, both without a state.
2. `Collection.next` is the collection behind an operation: a list that was consulted is frozen
   as it was, then the edits are made, and documents are kept when there were none.
3. `ask_perform` says that `perform` does this and nothing else, and it is the only place that
   opens `perform`.  `getElem?_answers` and `after_take_succ` carry it to sequences of operations.
-/

namespace CmdletForge.Display

/-! ## Lists -/

namespace Memo

/-- The list after it was looked at, if it was. -/
def lookIf (m : Memo) (b : Bool) : Memo := if b then m.look else m

/-- The list with what it is changed, and not what it was. -/
def edit (m : Memo) (change : List String → List String) : Memo :=
  { m with live := change m.live }

@[simp] theorem value_lookIf (m : Memo) (b : Bool) : (m.lookIf b).value = m.value := by
  cases b <;> rfl

/-- A look freezes the list, and no look leaves it. -/
theorem snapshot_lookIf (m : Memo) (b : Bool) :
    (m.lookIf b).snapshot = if b then some m.value else m.snapshot := by
  cases b <;> rfl

@[simp] theorem live_lookIf (m : Memo) (b : Bool) : (m.lookIf b).live = m.live := by
  cases b <;> rfl

@[simp] theorem edit_id (m : Memo) : m.edit id = m := rfl

/-- A frozen list shows what was frozen. -/
theorem value_eq_of_snapshot {m : Memo} (h : m.snapshot = some xs) : m.value = xs := by
  rw [value, h, Option.getD_some]

end Memo

/-! ## Operations -/

namespace Operation

/-- What an operation makes of the list `l`. -/
def edit (l : ListName) : Operation → List String → List String
  | .push l' x => fun xs => if l' = l then xs ++ [x] else xs
  | .clear l' => fun xs => if l' = l then [] else xs
  | _ => id

/-- The blocks that an operation adds. -/
def newBlocks : Operation → List Block
  | .pushBlock b => [b]
  | _ => []

/-- The documents that an operation finds in the files, when it is a load that can read them. -/
def found? : Operation → Option (List CustomDocument)
  | .load tree root filter =>
    (Collection.readDocuments tree (Collection.documentFolder root filter)).toOption
  | _ => none

/-- Whether an operation looks at the types to leave out. -/
def asksExclusions (isLoaded : Bool) : Operation → Bool
  | .exclusionSet => true
  | .effectiveExclusions => !isLoaded
  | .typeExcluded _ => !isLoaded
  | .typeEligible _ => !isLoaded
  | .load tree root filter => !isLoaded && (found? (.load tree root filter)).isSome
  | _ => false

/-- Whether an operation looks at the types to keep, when the types `excluded` are left out. -/
def asksInclusions (excluded : List String) : Operation → Bool
  | .inclusionSet => true
  | .typeEligible typeName => !excluded.contains typeName
  | _ => false

/-- Whether an operation looks at the namespaces to leave out, when the types `excluded` are
left out and the types `included` are to be kept. -/
def asksNamespaces (excluded included : List String) : Operation → Bool
  | .namespaceSet => true
  | .namespaceExcluded namespace_ => !isInternal namespace_
  | .typeEligible typeName =>
    !excluded.contains typeName && !included.contains typeName &&
      !isInternal (namespaceOf typeName)
  | _ => false

/-- A load that can read the files looks at the types to leave out. -/
theorem asksExclusions_of_found (op : Operation) (h : op.found? = some found) :
    op.asksExclusions false = true := by
  cases op with
  | load tree root filter => simp [asksExclusions, h]
  | _ => simp [found?] at h

/-- An operation that edits nothing, and finds no documents. -/
structure IsQuestion (op : Operation) : Prop where
  edit_eq : ∀ l, op.edit l = id
  newBlocks_eq : op.newBlocks = []
  found_eq : op.found? = none

end Operation

/-! ## Views -/

/-- What the answers of a collection depend on. -/
@[ext]
structure View where
  /-- Each list as it is. -/
  live : ListName → List String
  /-- Each list as it is consulted. -/
  seen : ListName → List String
  /-- The types that are left out. -/
  excluded : List String
  blocks : List Block
  /-- The documents that are loaded. -/
  documents : Option (List CustomDocument)

namespace View

/-- Whether a namespace is left out. -/
def leavesOut (v : View) (namespace_ : String) : Bool :=
  isInternal namespace_ || (v.seen .namespacesToExclude).contains namespace_

def isEligible (v : View) (typeName : String) : Bool :=
  !v.excluded.contains typeName &&
    ((v.seen .typesToInclude).contains typeName || !v.leavesOut (namespaceOf typeName))

/-- Whether an operation consults a list. -/
def consults (v : View) : ListName → Operation → Bool
  | .typesToExclude => Operation.asksExclusions v.documents.isSome
  | .typesToInclude => Operation.asksInclusions v.excluded
  | .namespacesToExclude => Operation.asksNamespaces v.excluded (v.seen .typesToInclude)

/-- What a load answers: the documents that are loaded, or else what it finds in the files. -/
def load (v : View) (tree : Files.Tree) (root : Path) (filter : Option String) :
    Except Collection.LoadError (List CustomDocument) :=
  match v.documents with
  | some documents => .ok documents
  | none => Collection.readDocuments tree (Collection.documentFolder root filter)

/-- The answer to an operation. -/
def reply (v : View) : Operation → Answer
  | .namespaceSet => .set (Text.sortedSet (v.seen .namespacesToExclude))
  | .inclusionSet => .set (Text.sortedSet (v.seen .typesToInclude))
  | .exclusionSet => .set (Text.sortedSet (v.seen .typesToExclude))
  | .effectiveExclusions => .set (Text.sortedSet v.excluded)
  | .push l x => .list (v.live l ++ [x])
  | .clear _ => .list []
  | .pushBlock b => .count (v.blocks ++ [b]).length
  | .namespaceExcluded namespace_ => .flag (v.leavesOut namespace_)
  | .typeExcluded typeName => .flag (v.excluded.contains typeName)
  | .typeEligible typeName => .flag (v.isEligible typeName)
  | .blocksFor typeName => .blocks (blocksFor v.blocks typeName)
  | .skips property => .flags (v.blocks.map fun b => b.skips property)
  | .columnsFor typeName catalog => .columns (columnsFor v.blocks typeName catalog)
  | .load tree root filter => .loaded (v.load tree root filter)
  | .documents => .documents v.documents

end View

/-! ## Questions -/

namespace Question

/-- What a question answers, and the collection behind it. -/
def ask (q : Question β) (c : Collection) : β × Collection := q.run c

theorem ask_pure (x : β) (c : Collection) : ask (pure x) c = (x, c) := rfl

theorem ask_get (c : Collection) : ask get c = (c, c) := rfl

theorem ask_bind (q : Question β) (f : β → Question γ) (c : Collection) :
    ask (q >>= f) c = ask (f (ask q c).1) (ask q c).2 := rfl

theorem ask_ite (b : Bool) (q q' : Question β) (c : Collection) :
    ask (if b then q else q') c = if b then ask q c else ask q' c := by
  cases b <;> rfl

end Question

namespace Collection

open Question (ask ask_pure ask_bind ask_ite)

/-- The types that are left out. -/
def excluded (c : Collection) : List String := (c.loaded.map (·.excluded)).getD c.exclusions.value

/-- What a collection shows. -/
def view (c : Collection) : View where
  live l := (c.list l).live
  seen l := (c.list l).value
  excluded := c.excluded
  blocks := c.blocks
  documents := c.loaded.map (·.documents)

theorem ask_inclusionSet (c : Collection) :
    ask inclusionSet c = (c.inclusions.value, { c with inclusions := c.inclusions.look }) := rfl

theorem ask_exclusionSet (c : Collection) :
    ask exclusionSet c = (c.exclusions.value, { c with exclusions := c.exclusions.look }) := rfl

/-- The exclusions are looked at only when no documents are loaded. -/
theorem ask_effectiveExclusions (c : Collection) :
    ask effectiveExclusions c =
      (c.excluded, { c with exclusions := c.exclusions.lookIf (!c.view.documents.isSome) }) := by
  obtain ⟨namespaces, inclusions, exclusions, blocks, loaded⟩ := c
  cases loaded <;> rfl

/-- The listed namespaces are looked at only for one that is not internal. -/
theorem ask_isNamespaceExcluded (namespace_ : String) (c : Collection) :
    ask (isNamespaceExcluded namespace_) c =
      (c.view.leavesOut namespace_,
        { c with namespaces := c.namespaces.lookIf (!isInternal namespace_) }) := by
  rw [isNamespaceExcluded, ask_ite, View.leavesOut]
  cases isInternal namespace_ <;> rfl

theorem ask_isTypeExcluded (typeName : String) (c : Collection) :
    ask (isTypeExcluded typeName) c =
      (c.excluded.contains typeName,
        { c with exclusions := c.exclusions.lookIf (!c.view.documents.isSome) }) := by
  rw [isTypeExcluded, ask_bind, ask_effectiveExclusions, ask_pure]

/-- The question about a type goes through its three questions, and stops where one decides. -/
theorem ask_isTypeEligible (typeName : String) (c : Collection) :
    ask (isTypeEligible typeName) c =
      (c.view.isEligible typeName,
        { c with
          namespaces := c.namespaces.lookIf
            (c.view.consults .namespacesToExclude (.typeEligible typeName))
          inclusions := c.inclusions.lookIf
            (c.view.consults .typesToInclude (.typeEligible typeName))
          exclusions := c.exclusions.lookIf (!c.view.documents.isSome) }) := by
  rw [isTypeEligible, ask_bind, ask_isTypeExcluded, ask_ite, ask_bind, ask_inclusionSet, ask_ite,
    ask_bind, ask_isNamespaceExcluded]
  change _ =
    (!c.excluded.contains typeName &&
        (c.inclusions.value.contains typeName || !c.view.leavesOut (namespaceOf typeName)),
      { c with
        namespaces := c.namespaces.lookIf (!c.excluded.contains typeName &&
          !c.inclusions.value.contains typeName && !isInternal (namespaceOf typeName))
        inclusions := c.inclusions.lookIf (!c.excluded.contains typeName)
        exclusions := c.exclusions.lookIf (!c.view.documents.isSome) })
  unfold View.leavesOut
  generalize isInternal (namespaceOf typeName) = internal
  -- the lists are consulted one after the other, until one of them settles the question
  cases c.excluded.contains typeName with
  | true => rfl
  | false =>
    change (if c.inclusions.value.contains typeName = true then _ else _) = _
    cases c.inclusions.value.contains typeName <;> rfl

/-- The collection behind an operation: what was consulted is frozen as it was. -/
def next (c : Collection) (op : Operation) : Collection where
  namespaces := (c.namespaces.lookIf (c.view.consults .namespacesToExclude op)).edit
    (op.edit .namespacesToExclude)
  inclusions := (c.inclusions.lookIf (c.view.consults .typesToInclude op)).edit
    (op.edit .typesToInclude)
  exclusions := (c.exclusions.lookIf (c.view.consults .typesToExclude op)).edit
    (op.edit .typesToExclude)
  blocks := c.blocks ++ op.newBlocks
  loaded := c.loaded.or <| op.found?.map fun documents =>
    ⟨documents, c.exclusions.value ++ documents.flatMap (·.typeNames)⟩

/-- What one operation does to a list: it looks, and then edits. -/
theorem list_next (c : Collection) (op : Operation) (l : ListName) :
    (c.next op).list l = ((c.list l).lookIf (c.view.consults l op)).edit (op.edit l) := by
  cases l <;> rfl

/-- A question freezes lists and does nothing else. -/
theorem next_of_question (c : Collection) {op : Operation} (h : op.IsQuestion) :
    c.next op =
      { c with
        namespaces := c.namespaces.lookIf (c.view.consults .namespacesToExclude op)
        inclusions := c.inclusions.lookIf (c.view.consults .typesToInclude op)
        exclusions := c.exclusions.lookIf (c.view.consults .typesToExclude op) } := by
  simp [next, h.edit_eq, h.newBlocks_eq, h.found_eq]

/-- Loading gives the documents and changes the state as an operation does. -/
theorem ask_load (tree : Files.Tree) (root : Path) (filter : Option String) (c : Collection) :
    ask (load tree root filter) c =
      (c.view.load tree root filter, c.next (.load tree root filter)) := by
  obtain ⟨namespaces, inclusions, exclusions, blocks, loaded⟩ := c
  simp only [next, Operation.newBlocks, Operation.found?, List.append_nil]
  cases loaded with
  | some l => rfl
  | none =>
    simp only [load, View.load, view, Option.map_none, View.consults, Operation.asksExclusions,
      Operation.found?]
    cases readDocuments tree (documentFolder root filter) <;> rfl

/-- **What an operation does**: all of `perform`. -/
theorem ask_perform (op : Operation) (c : Collection) :
    ask (perform op) c = (c.view.reply op, c.next op) := by
  cases op with
  | namespaceSet | inclusionSet | exclusionSet | blocksFor _ | skips _ | columnsFor _ _
  | documents =>
    rw [next_of_question c ⟨fun _ => rfl, rfl, rfl⟩]
    rfl
  | effectiveExclusions =>
    rw [next_of_question c ⟨fun _ => rfl, rfl, rfl⟩, perform, ask_bind, ask_effectiveExclusions,
      ask_pure]
    rfl
  | namespaceExcluded namespace_ =>
    rw [next_of_question c ⟨fun _ => rfl, rfl, rfl⟩, perform, ask_bind, ask_isNamespaceExcluded,
      ask_pure]
    rfl
  | typeExcluded typeName =>
    rw [next_of_question c ⟨fun _ => rfl, rfl, rfl⟩, perform, ask_bind, ask_isTypeExcluded,
      ask_pure]
    rfl
  | typeEligible typeName =>
    rw [next_of_question c ⟨fun _ => rfl, rfl, rfl⟩, perform, ask_bind, ask_isTypeEligible,
      ask_pure]
    rfl
  | push list _ | clear list =>
    simp only [next, Operation.newBlocks, Operation.found?, List.append_nil, Option.map_none,
      Option.or_none]
    cases list <;> rfl
  | pushBlock block =>
    simp only [next, Operation.found?, Option.map_none, Option.or_none]
    rfl
  | load tree root filter =>
    rw [perform, ask_bind, ask_load]
    rfl

/-! ## Sequences of operations -/

/-- The collection behind some operations. -/
def after (c : Collection) (ops : List Operation) : Collection := (ask (performAll ops) c).2

/-- The answers to some operations. -/
def answers (c : Collection) (ops : List Operation) : List Answer := (ask (performAll ops) c).1

theorem ask_performAll_cons (op : Operation) (ops : List Operation) (c : Collection) :
    ask (performAll (op :: ops)) c =
      (c.view.reply op :: (c.next op).answers ops, (c.next op).after ops) := by
  rw [performAll, List.mapM_cons, ask_bind, ask_perform]
  rfl

theorem after_cons (c : Collection) (op : Operation) (ops : List Operation) :
    c.after (op :: ops) = (c.next op).after ops := by
  rw [after, ask_performAll_cons]

theorem answers_cons (c : Collection) (op : Operation) (ops : List Operation) :
    c.answers (op :: ops) = c.view.reply op :: (c.next op).answers ops := by
  rw [answers, ask_performAll_cons]

/-- Operations can be performed in two parts. -/
theorem after_append (c : Collection) (ops later : List Operation) :
    c.after (ops ++ later) = (c.after ops).after later := by
  induction ops generalizing c with
  | nil => rfl
  | cons op ops ih => rw [List.cons_append, after_cons, after_cons, ih]

theorem after_append_singleton (c : Collection) (ops : List Operation) (op : Operation) :
    c.after (ops ++ [op]) = (c.after ops).next op := by
  rw [after_append, after_cons]
  rfl

/-- The collection behind one more operation of a sequence. -/
theorem after_take_succ {c : Collection} {ops : List Operation} (h : ops[i]? = some op) :
    c.after (ops.take (i + 1)) = (c.after (ops.take i)).next op := by
  rw [List.take_add_one, h, Option.toList_some, after_append_singleton]

/-- Each answer of a sequence is the reply of what the collection shows at that time. -/
theorem getElem?_answers (c : Collection) (ops : List Operation) (i : Nat) :
    (c.answers ops)[i]? = ops[i]?.map (c.after (ops.take i)).view.reply := by
  induction ops generalizing c i with
  | nil => rfl
  | cons op ops ih =>
    rw [answers_cons]
    cases i with
    | zero => rfl
    | succ i =>
      rw [List.getElem?_cons_succ, List.getElem?_cons_succ, List.take_succ_cons, after_cons, ih]

/-- An answer is the reply in the state that the operations before it lead to. -/
theorem getElem?_answers_eq_some_iff {c : Collection} {ops : List Operation} :
    (c.answers ops)[i]? = some a ↔
      ∃ op, ops[i]? = some op ∧ (c.after (ops.take i)).view.reply op = a := by
  rw [getElem?_answers, Option.map_eq_some_iff]

end Collection

end CmdletForge.Display
