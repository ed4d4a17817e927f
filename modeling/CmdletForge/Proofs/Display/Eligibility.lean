import CmdletForge.Proofs.Display.Loading

/-!
# CmdletForge.Proofs.Display.Eligibility

How the answers about a type go on.

1. Behind a question, the lists that it consults are frozen (`Settled`): a type is then left out
   or eligible by what nothing can edit any more.
2. What is left is a load: its documents may declare the type (`Gains`), and nothing else makes a
   type left out that was not (`mem_excluded_iff_of_extends`).  Otherwise a type stays eligible
   or not (`isEligible_of_extends`).
3. `eligibilityLaw` says this of sequences: a type is eligible for some time and is not from then
   on, and the load that ends the time is the first one that succeeds.
-/

namespace CmdletForge.Display

/-! ## Verdicts -/

/-- Besides the types that are left out, a type is eligible by the lists that the question
consults. -/
theorem View.isEligible_congr {v v' : View} {typeName : String}
    (hexcluded : v'.excluded.contains typeName = v.excluded.contains typeName)
    (hseen : ∀ l ≠ .typesToExclude, v.consults l (.typeEligible typeName) = true →
      v'.seen l = v.seen l) :
    v'.isEligible typeName = v.isEligible typeName := by
  rw [isEligible, isEligible, hexcluded]
  -- each list is seen as before, as far as those before it leave the question open
  cases hlisted : v.excluded.contains typeName with
  | true => rfl
  | false =>
    have hincluded : v'.seen .typesToInclude = v.seen .typesToInclude := by
      refine hseen .typesToInclude (by simp) ?_
      rw [consults, Operation.asksInclusions, hlisted]
      rfl
    rw [hincluded]
    cases hkept : (v.seen .typesToInclude).contains typeName with
    | true => rw [Bool.true_or, Bool.true_or]
    | false =>
      rw [leavesOut, leavesOut]
      cases hinternal : isInternal (namespaceOf typeName) with
      | true => rfl
      | false =>
        have hnamespaces : v'.seen .namespacesToExclude = v.seen .namespacesToExclude := by
          refine hseen .namespacesToExclude (by simp) ?_
          rw [consults, Operation.asksNamespaces, hlisted, hkept, hinternal]
          rfl
        rw [hnamespaces]

namespace Collection

/-! ## Settled questions -/

/-- The lists that an operation consults are frozen. -/
def Settled (c : Collection) (op : Operation) : Prop :=
  ∀ l, c.view.consults l op = true → ∃ xs, (c.list l).snapshot = some xs

/-- A question changes nothing of what is to be seen. -/
theorem view_next_of_question (c : Collection) {op : Operation} (h : op.IsQuestion) :
    (c.next op).view = c.view := by
  have hlive : (c.next op).view.live = c.view.live := by
    funext l
    change ((c.next op).list l).live = (c.list l).live
    rw [list_next, h.edit_eq, Memo.edit_id, Memo.live_lookIf]
  have hseen : (c.next op).view.seen = c.view.seen := by
    funext l
    change ((c.next op).list l).value = (c.list l).value
    rw [list_next, h.edit_eq, Memo.edit_id, Memo.value_lookIf]
  have hexcluded : (c.next op).excluded = c.excluded := by
    rw [c.next_of_question h, excluded, Memo.value_lookIf]
    rfl
  have hblocks : (c.next op).blocks = c.blocks := by rw [c.next_of_question h]
  have hloaded : (c.next op).loaded = c.loaded := by rw [c.next_of_question h]
  exact View.ext hlive hseen hexcluded hblocks (congrArg (Option.map Loaded.documents) hloaded)

/-- Behind a question, the lists that it consults are frozen. -/
theorem settled_next_of_question (c : Collection) {op : Operation} (h : op.IsQuestion) :
    (c.next op).Settled op := by
  intro l hconsults
  rw [c.view_next_of_question h] at hconsults
  refine ⟨(c.list l).value, ?_⟩
  rw [list_next, h.edit_eq, Memo.edit_id, Memo.snapshot_lookIf, if_pos hconsults]

/-- A list that is frozen is seen as it is for good. -/
theorem Extends.seen_eq {c c' : Collection} (h : c.Extends c') {l : ListName}
    (hs : ∃ xs, (c.list l).snapshot = some xs) :
    c'.view.seen l = c.view.seen l := by
  obtain ⟨xs, hxs⟩ := hs
  change (c'.list l).value = (c.list l).value
  rw [Memo.value_eq_of_snapshot hxs, Memo.value_eq_of_snapshot (h.snapshot_eq l xs hxs)]

/-! ## Types that documents declare -/

/-- Documents that declare a type are loaded in the later of two collections, and none were
in the earlier one. -/
def Gains (c c' : Collection) (typeName : String) : Prop :=
  c.loaded = none ∧
    ∃ x, c'.loaded = some x ∧ ∃ document ∈ x.documents, typeName ∈ document.typeNames

section
variable {c c' : Collection} {typeName : String}

/-- **Once an operation asked for the types that are left out**, a type is left out later when it
was then, or when documents declare it that were loaded since. -/
theorem mem_excluded_iff_of_extends (h : c.Extends c') (hs : c.Settled op)
    (hasks : op.asksExclusions false = true) :
    typeName ∈ c'.excluded ↔ typeName ∈ c.excluded ∨ c.Gains c' typeName := by
  cases hc : c.loaded with
  | some x =>
    have hc' := h.loaded_eq x hc
    simp [Gains, excluded, hc, hc']
  | none =>
    have hsnapshot : ∃ xs, (c.list .typesToExclude).snapshot = some xs :=
      hs .typesToExclude (by rw [View.consults, view, hc]; exact hasks)
    have hvalue : c'.exclusions.value = c.exclusions.value := h.seen_eq hsnapshot
    cases hc' : c'.loaded with
    | none => simp [Gains, excluded, hc, hc', hvalue]
    | some x =>
      obtain ⟨listed, hlisted, hx⟩ := h.excluded_eq hc x hc'
      rw [Memo.value_eq_of_snapshot hlisted] at hvalue
      simp [Gains, excluded, hc, hc', hx, hvalue]

/-- **Once a type was asked for**, it stays eligible or not when no documents declare it that
were loaded since. -/
theorem isEligible_of_extends (h : c.Extends c') (hs : c.Settled (.typeEligible typeName))
    (hgains : ¬ c.Gains c' typeName) :
    c'.view.isEligible typeName = c.view.isEligible typeName := by
  have hexcluded : c'.excluded.contains typeName = c.excluded.contains typeName := by
    rw [Bool.eq_iff_iff, List.contains_iff_mem, List.contains_iff_mem,
      mem_excluded_iff_of_extends h hs rfl, or_iff_left hgains]
  exact View.isEligible_congr hexcluded fun l _ hconsults => h.seen_eq (hs l hconsults)

/-- A type that documents declare is not eligible. -/
theorem isEligible_of_gains (h : c.Extends c') (hs : c.Settled (.typeEligible typeName))
    (hgains : c.Gains c' typeName) : c'.view.isEligible typeName = false := by
  have hexcluded : c'.excluded.contains typeName = true :=
    List.contains_iff_mem.mpr ((mem_excluded_iff_of_extends h hs rfl).mpr (.inr hgains))
  change (!c'.excluded.contains typeName && _) = false
  rw [hexcluded]
  rfl

end

/-! ## Questions in a sequence -/

/-- The operation of a sequence that stands at the place `i`, and its answer. -/
def AnswersAt (c : Collection) (ops : List Operation) (i : Nat) (op : Operation) (a : Answer) :
    Prop :=
  ops[i]? = some op ∧ (c.answers ops)[i]? = some a

section
variable {c : Collection} {ops : List Operation} {typeName : String} {i j : Nat}

/-- The answer at a position is the reply in the state before it. -/
theorem reply_of_answersAt (h : c.AnswersAt ops i op a) :
    (c.after (ops.take i)).view.reply op = a := by
  obtain ⟨hop, ha⟩ := h
  rw [getElem?_answers, hop, Option.map_some] at ha
  exact Option.some.inj ha

/-- Documents that were gained in a sequence come from the first load in it that succeeds. -/
theorem exists_loadsFirstAt_of_gains (hij : i < j)
    (h : (c.after (ops.take (i + 1))).Gains (c.after (ops.take j)) typeName) :
    ∃ k documents, i < k ∧ k < j ∧ c.LoadsFirstAt ops k documents ∧
      ∃ document ∈ documents, typeName ∈ document.typeNames := by
  obtain ⟨hnone, x, hx, hdeclares⟩ := h
  obtain ⟨k, hik, hkj, hfirst⟩ := exists_loadsFirstAt hij hnone hx
  exact ⟨k, x.documents, hik, hkj, hfirst, hdeclares⟩

/-- Behind a question of a sequence, the lists that it consults are frozen, and its answer would
be the same. -/
theorem settled_of_answersAt (h : c.AnswersAt ops i op a) (hquestion : op.IsQuestion) :
    (c.after (ops.take (i + 1))).Settled op ∧
      (c.after (ops.take (i + 1))).view.reply op = a := by
  rw [after_take_succ h.1, view_next_of_question _ hquestion]
  exact ⟨settled_next_of_question _ hquestion, reply_of_answersAt h⟩

/-- Two questions whether a type is eligible: the later answer is the same, unless documents
declare the type that were loaded in between. -/
theorem isEligible_of_answersAt (hij : i < j)
    (hi : c.AnswersAt ops i (.typeEligible typeName) (.flag b))
    (hj : c.AnswersAt ops j (.typeEligible typeName) (.flag b')) :
    b' = b ∨ b' = false ∧ (c.after (ops.take (i + 1))).Gains (c.after (ops.take j)) typeName := by
  have hextends := c.extends_take ops (Nat.succ_le_of_lt hij)
  obtain ⟨hsettled, hreply⟩ := settled_of_answersAt hi ⟨fun _ => rfl, rfl, rfl⟩
  obtain rfl := Answer.flag.inj hreply
  obtain rfl := Answer.flag.inj (reply_of_answersAt hj)
  by_cases hgains : (c.after (ops.take (i + 1))).Gains (c.after (ops.take j)) typeName
  · exact .inr ⟨isEligible_of_gains hextends hsettled hgains, hgains⟩
  · exact .inl (isEligible_of_extends hextends hsettled hgains)

/-- Two questions whether a type is left out: it still is when it was. -/
theorem isExcluded_of_answersAt (hij : i < j)
    (hi : c.AnswersAt ops i (.typeExcluded typeName) (.flag true))
    (hj : c.AnswersAt ops j (.typeExcluded typeName) (.flag b)) : b = true := by
  have hextends := c.extends_take ops (Nat.succ_le_of_lt hij)
  obtain ⟨hsettled, hreply⟩ := settled_of_answersAt hi ⟨fun _ => rfl, rfl, rfl⟩
  have hexcluded := List.contains_iff_mem.mp (Answer.flag.inj hreply)
  obtain rfl := Answer.flag.inj (reply_of_answersAt hj)
  exact List.contains_iff_mem.mpr
    ((mem_excluded_iff_of_extends hextends hsettled rfl).mpr (.inl hexcluded))

/-- Once a type is not eligible, it never is again. -/
theorem not_isEligible_of_answersAt (hij : i < j)
    (hi : c.AnswersAt ops i (.typeEligible typeName) (.flag false))
    (hj : c.AnswersAt ops j (.typeEligible typeName) (.flag b)) : b = false := by
  rcases isEligible_of_answersAt hij hi hj with h | ⟨h, -⟩ <;> exact h

end

/-! ## The law of eligibility -/

/-- The answer to the question whether a type is eligible, if this is one. -/
def verdict? (typeName : String) : Operation × Answer → Option Bool
  | (.typeEligible asked, .flag b) => if asked = typeName then some b else none
  | _ => none

/-- The answers to the questions whether a type is eligible, in their order. -/
def verdicts (c : Collection) (ops : List Operation) (typeName : String) : List Bool :=
  (ops.zip (c.answers ops)).filterMap (verdict? typeName)

/-- A verdict is an answer to the question about that type. -/
theorem verdict_eq_some_iff {p : Operation × Answer} :
    verdict? typeName p = some b ↔ p = (.typeEligible typeName, .flag b) := by
  obtain ⟨op, a⟩ := p
  constructor
  · intro h
    cases op with
    | typeEligible asked =>
      cases a with
      | flag b' =>
        rw [verdict?, Option.ite_none_right_eq_some] at h
        obtain ⟨rfl, hb⟩ := h
        rw [Option.some.inj hb]
      | _ => contradiction
    | _ => contradiction
  · intro h
    rw [h]
    exact if_pos rfl

/-- The verdicts of a sequence are its answers. -/
theorem answersAt_of_verdict {c : Collection} {ops : List Operation} {i : Nat}
    (hi : i < (ops.zip (c.answers ops)).length)
    (h : verdict? typeName (ops.zip (c.answers ops))[i] = some b) :
    c.AnswersAt ops i (.typeEligible typeName) (.flag b) := by
  have hzip := List.getElem?_eq_getElem hi
  rwa [verdict_eq_some_iff.mp h, List.getElem?_zip_eq_some] at hzip

/-- Answers of which none follows a `false` but `false` are `true` for some time, and then not. -/
theorem exists_eq_replicate_append {bs : List Bool}
    (h : bs.Pairwise fun b b' => b = false → b' = false) :
    ∃ m n, bs = List.replicate m true ++ List.replicate n false := by
  induction h with
  | nil => exact ⟨0, 0, rfl⟩
  | @cons b bs hb _ ih =>
    cases b with
    | true =>
      obtain ⟨m, n, rfl⟩ := ih
      exact ⟨m + 1, n, rfl⟩
    | false =>
      have hfalse : bs = List.replicate bs.length false :=
        List.eq_replicate_of_mem fun b' hb' => hb b' hb' rfl
      exact ⟨0, bs.length + 1, congrArg (List.cons false) hfalse⟩

/-- After a refusal there is no other verdict. -/
theorem pairwise_verdicts (c : Collection) (ops : List Operation) (typeName : String) :
    (c.verdicts ops typeName).Pairwise fun b b' => b = false → b' = false := by
  rw [verdicts, List.pairwise_filterMap, List.pairwise_iff_getElem]
  intro i j hi hj hij b hb b' hb' hfalse
  subst hfalse
  exact not_isEligible_of_answersAt hij (answersAt_of_verdict hi hb) (answersAt_of_verdict hj hb')

/-- What is to be said of the questions about a type among operations on a collection. -/
structure EligibilityLaw (c : Collection) (ops : List Operation) (typeName : String) : Prop where
  /-- The type is eligible for some time, and then it is not. -/
  shrinks : ∃ m n, c.verdicts ops typeName = List.replicate m true ++ List.replicate n false
  /-- Once it is not eligible, it never is again. -/
  neverAgain : ∀ i j, i < j → ∀ b, c.AnswersAt ops i (.typeEligible typeName) (.flag false) →
    c.AnswersAt ops j (.typeEligible typeName) (.flag b) → b = false
  /-- When it was eligible and is not any more, the first load that succeeds stands in between,
  and one of its documents declares the type. -/
  endsByLoad : ∀ i j, i < j → c.AnswersAt ops i (.typeEligible typeName) (.flag true) →
    c.AnswersAt ops j (.typeEligible typeName) (.flag false) →
    ∃ k documents, i < k ∧ k < j ∧ c.LoadsFirstAt ops k documents ∧
      ∃ document ∈ documents, typeName ∈ document.typeNames
  /-- Once it is left out, it always is. -/
  excludedStays : ∀ i j, i < j → ∀ b,
    c.AnswersAt ops i (.typeExcluded typeName) (.flag true) →
    c.AnswersAt ops j (.typeExcluded typeName) (.flag b) → b = true

/-- **The law of eligibility**: a type can only cease to be eligible, once, and only documents
make it so. -/
theorem eligibilityLaw (c : Collection) (ops : List Operation) (typeName : String) :
    EligibilityLaw c ops typeName where
  shrinks := exists_eq_replicate_append (c.pairwise_verdicts ops typeName)
  neverAgain _ _ hij _ := not_isEligible_of_answersAt hij
  endsByLoad i j hij hi hj := by
    rcases isEligible_of_answersAt hij hi hj with h | ⟨-, hgains⟩
    · contradiction
    · exact exists_loadsFirstAt_of_gains hij hgains
  excludedStays _ _ hij _ := isExcluded_of_answersAt hij

/-- An edit comes too late, a load that fails does nothing, and documents count. -/
example :
    (ofManifest .blank).verdicts
        [.typeEligible "A.B", .push .typesToExclude "A.B", .typeEligible "A.B",
          .load (shelf none) "/r" none, .typeEligible "A.B",
          .load (shelf "<TypeName>A.B</TypeName>") "/r" none, .typeEligible "A.B"] "A.B" =
      [true, true, true, false] := by
  decide +kernel

end Collection

end CmdletForge.Display
