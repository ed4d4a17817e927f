import Mathlib.Data.List.Basic
import CmdletForge.Proofs.Paging.Pages

/-!
# CmdletForge.Proofs.Paging.Delivery

What a run hands on, and what it says of itself in the end.

1. `delivery` says what the pages of a run come to in the pipeline, page by page: the items in
   order, up to the limit over all pages, and a progress record when nobody controls the
   paging.  It is said by what has been emitted of the first pages (`emitted`), not by a count
   that is carried along.
2. `Outcome` adds the failure and the summary.  `exists_outcome_of_stop` finds it for each of
   the three ways in which a round can stop a run, and `run_outcome` for whole runs: the
   answers of the service decide all of it, but for the moment of a cancellation.
-/

namespace CmdletForge.Paging

variable {α : Type}

/-! ## Deliveries -/

/-- Whether an event is a request to the service. -/
def Event.isFetch : Event α → Bool
  | .fetch _ => true
  | _ => false

/-- What the pipeline gets of a trace: all but the requests. -/
def received (t : Trace α) : Trace α := t.filter (!·.isFetch)

/-- The items of some pages that are handed on: all, or the first ones up to the limit. -/
def emitted (o : Options) (pages : List (Page α)) : List α :=
  match o.emitLimit with
  | none => pages.flatMap (·.items)
  | some limit => (pages.flatMap (·.items)).take limit

/-- What the pipeline gets of the page with index `i`: the items that were not emitted with the
pages before it, and how far the run has come, unless the caller controls the paging. -/
def pageDelivery (o : Options) (pages : List (Page α)) (i : Nat) : Trace α :=
  ((emitted o (pages.take (i + 1))).drop (emitted o (pages.take i)).length).map .object ++
    if o.callerControls then []
    else [.progress ⟨o.activity, i + 1, (emitted o (pages.take (i + 1))).length⟩]

/-- What the pipeline gets of some pages. -/
def delivery (o : Options) (pages : List (Page α)) : Trace α :=
  (List.range pages.length).flatMap (pageDelivery o pages)

/-- As many items are emitted as the pages have, or as the limit allows. -/
theorem length_emitted (o : Options) (pages : List (Page α)) :
    (emitted o pages).length =
      o.emitLimit.elim (pages.flatMap (·.items)).length (min (pages.flatMap (·.items)).length) := by
  unfold emitted
  cases o.emitLimit with
  | none => rfl
  | some limit => rw [List.length_take, Nat.min_comm]; rfl

/-- Of one more page as much is emitted as the limit leaves. -/
theorem emitted_append_singleton (o : Options) (pages : List (Page α)) (p : Page α) :
    emitted o (pages ++ [p]) = emitted o pages ++ o.shown (emitted o pages).length p.items := by
  unfold emitted Options.shown
  cases o.emitLimit with
  | none => simp
  | some limit =>
      simp only [List.flatMap_append, List.flatMap_singleton, List.take_append, List.length_take]
      congr 2
      omega

/-- One more page is delivered behind the ones before it. -/
theorem delivery_append_singleton (o : Options) (pages : List (Page α)) (p : Page α) :
    delivery o (pages ++ [p]) =
      delivery o pages ++
        o.pageEvents (o.shown (emitted o pages).length p.items)
          ⟨pages.length + 1, (emitted o (pages ++ [p])).length, p.nextToken⟩ := by
  have hold : ∀ i ∈ List.range pages.length,
      pageDelivery o (pages ++ [p]) i = pageDelivery o pages i := by
    intro i hi
    have hi := List.mem_range.mp hi
    rw [pageDelivery, pageDelivery, List.take_append_of_le_length (by omega),
      List.take_append_of_le_length (by omega)]
  have hall : (pages ++ [p]).take (pages.length + 1) = pages ++ [p] :=
    List.take_of_length_le (by simp)
  rw [delivery, List.length_append, List.length_singleton, List.range_succ, List.flatMap_append,
    List.flatMap_congr hold, ← delivery, List.flatMap_singleton, pageDelivery, hall,
    List.take_left, Options.pageEvents, emitted_append_singleton, List.drop_left]

@[simp] theorem received_append (s t : Trace α) : received (s ++ t) = received s ++ received t :=
  List.filter_append s t

@[simp] theorem objects_append (s t : Trace α) : objects (s ++ t) = objects s ++ objects t :=
  List.filterMap_append

theorem received_pageEvents (o : Options) (xs : List α) (s : Standing) :
    received (o.pageEvents xs s) = o.pageEvents xs s := by
  rw [received, List.filter_eq_self]
  intro e he
  unfold Options.pageEvents at he
  cases e with
  | fetch r => split at he <;> simp at he
  | object x => rfl
  | progress p => rfl
  | error f => rfl

theorem objects_pageEvents (o : Options) (xs : List α) (s : Standing) :
    objects (o.pageEvents xs s) = xs := by
  have hxs : objects (xs.map Event.object) = xs := by
    rw [objects, List.filterMap_map]
    exact List.filterMap_some
  rw [Options.pageEvents, objects_append, hxs]
  split <;> simp [objects]

/-! ## Behind some pages -/

namespace Setup

variable (v : Setup α)

/-- Where a run stands behind some pages: what it counts is what it emitted, and the pipeline
got their delivery. -/
structure Delivered (pages : List (Page α)) (h : Head α) (t : Trace α) : Prop where
  before_eq : h.before = v.before ++ t
  standing_eq : h.standing =
    ⟨pages.length, (emitted v.options pages).length, pages.getLast?.bind (·.nextToken)⟩
  received_eq : received t = delivery v.options pages
  objects_eq : objects t = emitted v.options pages

theorem delivered_nil : v.Delivered [] (.first v.options v.before) [] where
  before_eq := (List.append_nil _).symm
  standing_eq := by
    cases hl : v.options.emitLimit <;> simp [Head.first, Standing.start, emitted, hl]
  received_eq := rfl
  objects_eq := by cases hl : v.options.emitLimit <;> simp [objects, emitted, hl]

/-- The step of the induction: one more page is handed on. -/
theorem Delivered.append_singleton (hd : v.Delivered pages h t) (p : Page α) :
    v.Delivered (pages ++ [p]) (h.next v.options v.blank p)
      (t ++ h.events v.options v.blank p) := by
  have hshown : h.shown v.options p =
      v.options.shown (emitted v.options pages).length p.items := by
    rw [Head.shown, hd.standing_eq]
  have hstanding : h.standingAfter v.options p =
      ⟨pages.length + 1, (emitted v.options (pages ++ [p])).length, p.nextToken⟩ := by
    rw [Head.standingAfter, hshown, hd.standing_eq, emitted_append_singleton, List.length_append]
    rfl
  refine ⟨?_, ?_, ?_, ?_⟩
  · rw [Head.next, hd.before_eq, List.append_assoc]
  · rw [Head.next, hstanding]
    simp
  · rw [received_append, hd.received_eq, delivery_append_singleton, ← hshown, ← hstanding,
      ← received_pageEvents]
    rfl
  · rw [objects_append, hd.objects_eq, emitted_append_singleton, ← hshown,
      ← objects_pageEvents v.options (h.shown v.options p) (h.standingAfter v.options p)]
    rfl

/-- The pages that were answered have been delivered. -/
theorem exists_delivered (pages : List (Page α)) :
    ∃ t, v.Delivered pages (v.headAfter pages) t := by
  induction pages using List.reverseRecOn with
  | nil => exact ⟨[], v.delivered_nil⟩
  | append_singleton pages p ih =>
      obtain ⟨t, ht⟩ := ih
      rw [headAfter_append_singleton]
      exact ⟨_, ht.append_singleton v p⟩

/-! ## Outcomes -/

/-- Whether the run is seen to be cancelled when its loop comes round. -/
def SeesCancellation : Prop := ∃ k h, v.headAt? k = some h ∧ v.cancelled h.before = true

/-- What the summary of a run counts, when it fetched the pages `pages`. -/
structure Tally (pages : List (Page α)) (summary : Summary) (trace : Trace α) : Prop where
  pagesFetched_eq : summary.pagesFetched = pages.length
  itemsEmitted_eq : summary.itemsEmitted = (objects trace).length
  /-- All items are emitted, or as many as the limit allows. -/
  itemsEmitted_eq_min : summary.itemsEmitted =
    v.options.emitLimit.elim (pages.flatMap (·.items)).length
      (min (pages.flatMap (·.items)).length)
  nextToken_eq : summary.nextToken = pages.getLast?.bind (·.nextToken)

/-- What a run comes to when its fetches answer the pages `pages` and then, if there is one,
the failure `failure`.  An `error` event is a record with the identifier `FetchFailure.id`. -/
structure Outcome (pages : List (Page α)) (failure : Option String) (summary : Summary)
    (trace : Trace α) : Prop extends v.Tally pages summary trace where
  /-- The pipeline gets the pages, then the failure with the number of the page, and no more. -/
  received_eq : received trace = delivery v.options pages ++
    failure.toList.map fun reason => .error ⟨pages.length + 1, reason⟩
  failed_iff : summary.state = .failed ↔ failure.isSome
  cancelled_iff : summary.state = .cancelled ↔ v.SeesCancellation
  /-- Any other run stops behind its last page. -/
  state_eq : failure = none → ¬ v.SeesCancellation → ∃ p, pages.getLast? = some p ∧
    summary.state =
      if p.nextToken = none ∨ p.nextToken = some "" then .exhausted
      else if v.options.emitLimit.any (· ≤ summary.itemsEmitted) then .limitReached
      else .userControlled

/-- A summary counts what was delivered. -/
theorem Delivered.tally (hd : v.Delivered pages h t) (state : State)
    (hobjects : objects trace = emitted v.options pages) :
    v.Tally pages (h.standing.stop state) trace := by
  rw [hd.standing_eq]
  refine ⟨rfl, ?_, ?_, rfl⟩
  · rw [hobjects]; rfl
  · rw [← length_emitted]; rfl

/-- A run that stops has seen a cancellation exactly when its last round did. -/
theorem seesCancellation_iff_of_stop (hh : v.headAt? k = some h)
    (hr : v.round h = .stop summary events) :
    v.SeesCancellation ↔ v.cancelled h.before = true := by
  refine ⟨?_, fun hc => ⟨k, h, hh, hc⟩⟩
  rintro ⟨j, h', hh', hc'⟩
  have hcases := v.round_cases h'
  generalize hr' : v.round h' = r at hcases
  cases hcases with
  | cancelled _ =>
      obtain ⟨rfl, -⟩ := v.stop_unique hh hr hh' hr'
      exact hc'
  | failed hc _ _ => simp [hc] at hc'
  | page hc _ _ _ _ => simp [hc] at hc'
  | again hc _ _ _ => simp [hc] at hc'

section
variable {pages : List (Page α)} {trace : Trace α}

/-- A run that is cancelled behind the pages `pages`. -/
theorem outcome_of_cancelled (hh : v.headAt? pages.length = some (v.headAfter pages))
    (hc : v.cancelled (v.headAfter pages).before = true)
    (htrace : v.before ++ trace = (v.headAfter pages).before) :
    v.Outcome pages none ((v.headAfter pages).standing.stop .cancelled) trace := by
  obtain ⟨t, ht⟩ := v.exists_delivered pages
  obtain rfl : trace = t := List.append_cancel_left (htrace.trans ht.before_eq)
  have hseen : v.SeesCancellation := ⟨_, _, hh, hc⟩
  refine ⟨ht.tally v .cancelled ht.objects_eq, ?_, ?_, ?_, ?_⟩
  · simpa using ht.received_eq
  · simp [Standing.stop]
  · simp [Standing.stop, hseen]
  · exact fun _ hnot => absurd hseen hnot

/-- A run with a fetch that fails behind the pages `pages`. -/
theorem outcome_of_failed (hseen : ¬ v.SeesCancellation) (reason : String)
    (htrace : v.before ++ trace = (v.headAfter pages).before ++
      [.fetch ((v.headAfter pages).request v.options v.blank),
        .error ⟨(v.headAfter pages).standing.pagesFetched + 1, reason⟩]) :
    v.Outcome pages (some reason) ((v.headAfter pages).standing.stop .failed) trace := by
  obtain ⟨t, ht⟩ := v.exists_delivered pages
  rw [ht.before_eq, List.append_assoc] at htrace
  have htrace := List.append_cancel_left htrace
  have hobjects : objects trace = emitted v.options pages := by
    rw [htrace, objects_append, ht.objects_eq]
    simp [objects]
  refine ⟨ht.tally v .failed hobjects, ?_, ?_, ?_, ?_⟩
  · rw [htrace, received_append, ht.received_eq, ht.standing_eq]
    rfl
  · simp [Standing.stop]
  · simp [Standing.stop, hseen]
  · intro hnone
    contradiction

/-- A run that stops behind the page `p`. -/
theorem outcome_of_page (hseen : ¬ v.SeesCancellation) (p : Page α) (state : State)
    (hs : v.options.stopAfter? p ((v.headAfter pages).standingAfter v.options p) = some state)
    (htrace : v.before ++ trace =
      (v.headAfter pages).before ++ (v.headAfter pages).events v.options v.blank p) :
    v.Outcome (pages ++ [p]) none
      (((v.headAfter pages).standingAfter v.options p).stop state) trace := by
  obtain ⟨t, ht⟩ := v.exists_delivered (pages ++ [p])
  rw [headAfter_append_singleton] at ht
  obtain rfl : trace = t := List.append_cancel_left (htrace.trans ht.before_eq)
  have hstate := Options.eq_of_stopAfter?_eq_some hs
  refine ⟨ht.tally v state ht.objects_eq, ?_, ?_, ?_, ?_⟩
  · simpa using ht.received_eq
  · have hne : state ≠ .failed := by grind
    simp [Standing.stop, hne]
  · have hne : state ≠ .cancelled := by grind
    simp [Standing.stop, hne, hseen]
  · exact fun _ _ => ⟨p, by simp, hstate⟩

end

/-- **What a run comes to**, for each way to stop. -/
theorem exists_outcome_of_stop (hh : v.headAt? k = some h)
    (hr : v.round h = .stop summary events) (htrace : v.before ++ trace = h.before ++ events) :
    ∃ pages failure, k ≤ pages.length ∧ v.Answers pages failure ∧
      v.Outcome pages failure summary trace := by
  have hseen := v.seesCancellation_iff_of_stop hh hr
  have hend : v.answerAt? (k + 1) = none := by
    have hnone := v.headAt?_eq_none_of_stop hh hr (Nat.lt_succ_self k)
    exact v.answerAt?_eq_none_of_headAt? hnone (Nat.le_refl _)
  obtain ⟨pages, rfl, rfl, hgo, hanswers⟩ := v.exists_pages_of_headAt? hh
  have hcases := v.round_cases (v.headAfter pages)
  rw [hr] at hcases
  cases hcases with
  | cancelled hc =>
      refine ⟨pages, none, Nat.le_refl _, v.answers_of_end hanswers (by simp) ?_,
        v.outcome_of_cancelled hh hc (by simpa using htrace)⟩
      simp [answerAt?, exchangeAt?, hh, hc]
  | failed hc reason ha =>
      have hseen : ¬ v.SeesCancellation := by simp [hseen, hc]
      refine ⟨pages, some reason, Nat.le_refl _, v.answers_of_end hanswers ?_ hend,
        v.outcome_of_failed hseen reason htrace⟩
      rintro _ ⟨⟩
      exact v.answerAt?_eq_some_iff.mpr ⟨_, hh, hc, ha⟩
  | page hc p ha state hs =>
      have hseen : ¬ v.SeesCancellation := by simp [hseen, hc]
      refine ⟨pages ++ [p], none, by simp, v.answers_of_end ?_ (by simp) (by simpa using hend),
        v.outcome_of_page hseen p state hs htrace⟩
      intro i hi
      rcases Nat.lt_or_ge i pages.length with hlt | hge
      · rw [hanswers i hlt, List.getElem?_append_left hlt]
      · obtain rfl : i = pages.length := by simp at hi; omega
        rw [v.answerAt?_eq_some_iff.mpr ⟨_, hh, hc, ha⟩]
        simp

/-- A run that comes to an end has a list of answers, and the outcome that goes with it. -/
theorem exists_answers_of_run (hrun : v.run steps = some (summary, trace)) :
    ∃ pages failure, v.Answers pages failure ∧ v.Outcome pages failure summary trace := by
  obtain ⟨k, h, events, hh, hr, htrace⟩ := v.exists_stop_of_runFrom (j := 0) rfl hrun
  obtain ⟨pages, failure, -, hanswers, hout⟩ := v.exists_outcome_of_stop hh hr htrace
  exact ⟨pages, failure, hanswers, hout⟩

/-- A run whose fetches answer a list comes to an end behind it. -/
theorem exists_run_of_answers {pages : List (Page α)} {failure : Option String}
    (h : v.Answers pages failure) :
    ∃ summary trace, (∀ steps, pages.length < steps → v.run steps = some (summary, trace)) ∧
      v.Outcome pages failure summary trace := by
  have hnone : v.answerAt? (pages.length + 1) = none := by
    rw [h, List.getElem?_eq_none]
    cases failure <;> simp
  obtain ⟨k, h₀, summary, events, -, hh, hr⟩ :=
    v.exists_stop_of_headAt?_eq_none (v.headAt?_succ_eq_none hnone)
  have hrun : ∀ steps, k < steps → ∃ trace, v.run steps = some (summary, trace) ∧
      v.before ++ trace = h₀.before ++ events := fun steps hsteps =>
    v.exists_runFrom_of_stop (j := 0) rfl hsteps (by simpa using hh) hr
  obtain ⟨trace, hfirst, htrace⟩ := hrun (k + 1) (Nat.lt_succ_self k)
  obtain ⟨pages', failure', hk, hanswers, hout⟩ := v.exists_outcome_of_stop hh hr htrace
  obtain ⟨rfl, rfl⟩ := Answers.unique v h hanswers
  refine ⟨summary, trace, fun steps hsteps => ?_, hout⟩
  obtain ⟨trace', hlater, -⟩ := hrun steps (Nat.lt_of_le_of_lt hk hsteps)
  rw [hlater, v.run_unique hlater hfirst]

end Setup

/-- **The outcome of a run**: a run comes to an end exactly when its fetches answer finitely
many pages and then maybe a failure; what the pipeline gets and what the summary says is
decided by these, and by whether the run is seen to be cancelled. -/
theorem run_outcome (v : Setup α) :
    (∀ steps summary trace, v.run steps = some (summary, trace) →
      ∃ pages failure, v.Answers pages failure) ∧
    ∀ pages failure, v.Answers pages failure →
      ∃ summary trace, (∀ steps, pages.length < steps → v.run steps = some (summary, trace)) ∧
        v.Outcome pages failure summary trace := by
  constructor
  · intro steps summary trace hrun
    obtain ⟨pages, failure, hanswers, -⟩ := v.exists_answers_of_run hrun
    exact ⟨pages, failure, hanswers⟩
  · intro pages failure hanswers
    exact v.exists_run_of_answers hanswers

/-- Two pages of a service that is asked until it has no token, which nobody controls. -/
def twoPages : Setup Nat where
  service := scripted [.ok ⟨[1, 2], some "a"⟩, .ok ⟨[3], none⟩]
  cancelled := fun _ => false
  options := ⟨none, none, false, some 5, defaultActivity⟩
  blank := ⟨none, none, true⟩
  before := []

theorem answers_twoPages : twoPages.Answers [⟨[1, 2], some "a"⟩, ⟨[3], none⟩] none
  | 0 => rfl
  | 1 => rfl
  | _ + 2 => twoPages.answerAt?_eq_none_of_headAt? (j := 2) rfl (by omega)

theorem run_twoPages :
    ∃ summary trace, twoPages.run 3 = some (summary, trace) ∧ summary.state = .exhausted ∧
      twoPages.Outcome [⟨[1, 2], some "a"⟩, ⟨[3], none⟩] none summary trace := by
  obtain ⟨summary, trace, hrun, hout⟩ := (run_outcome twoPages).2 _ _ answers_twoPages
  have hrun := hrun 3 (by decide)
  refine ⟨summary, trace, hrun, ?_, hout⟩
  have hstate : (twoPages.run 3).map (·.1.state) = some .exhausted := by decide
  rw [hrun] at hstate
  exact Option.some.inj hstate

end CmdletForge.Paging
