import CmdletForge.Invocation.Paging

/-!
# CmdletForge.Proofs.Paging.Rounds

A run seen round by round.

1. `headAt? k` is where the loop stands when it comes round after `k` pages, if it ever does,
   and `exchangeAt? k` the fetch that is made there.  Both make sense of a run without an end.
2. `round_cases` says all that a round can do.  Whatever is said of rounds, heads and fetches
   goes by its four cases.
3. A run has an end exactly when one of its rounds is a stop (`exists_stop_of_runFrom`,
   `exists_runFrom_of_stop`); then its trace is all that happened up to there, and more steps
   do not change it.
-/

namespace CmdletForge.Paging

variable {α : Type}

/-- All that a run depends on. -/
structure Setup (α : Type) where
  service : Service α
  cancelled : Cancellation α
  options : Options
  /-- The request as it is before the first fetch. -/
  blank : Request
  /-- All that happened before the run. -/
  before : Trace α

/-- A fetch and what the service answers to it. -/
structure Exchange (α : Type) where
  request : Request
  answer : Except String (Page α)

/-- A page behind which the loop comes round again. -/
structure GoesOn (o : Options) (p : Page α) : Prop where
  hasToken : p.isLast = false
  uncontrolled : o.callerControls = false

/-! ## Options and tokens -/

/-- A page is the last one without a token or with an empty one. -/
theorem Page.isLast_iff (p : Page α) :
    p.isLast = true ↔ p.nextToken = none ∨ p.nextToken = some "" := by
  unfold isLast isFinal
  cases p.nextToken <;> simp

theorem Page.isLast_eq_false_iff (p : Page α) :
    p.isLast = false ↔ ∃ t, p.nextToken = some t ∧ t ≠ "" := by
  unfold isLast isFinal
  cases p.nextToken <;> simp

theorem Options.callerControls_eq_false_iff (o : Options) :
    o.callerControls = false ↔
      o.startToken = none ∧ o.emitLimit = none ∧ o.noAutoIteration = false := by
  simp [callerControls, and_assoc]

/-- The loop comes round again behind a page with a token, when nobody controls the paging; a
limit always stops it. -/
theorem Options.stopAfter?_eq_none_iff (o : Options) (p : Page α) (s : Standing) :
    o.stopAfter? p s = none ↔ GoesOn o p := by
  constructor
  · intro h
    unfold stopAfter? at h
    constructor <;> grind
  · intro h
    have hlimit := ((callerControls_eq_false_iff o).mp h.uncontrolled).2.1
    simp [stopAfter?, h.hasToken, h.uncontrolled, isReached, hlimit]

/-- Which state a run stops with behind a page. -/
theorem Options.eq_of_stopAfter?_eq_some {o : Options} {p : Page α} {s : Standing}
    (h : o.stopAfter? p s = some state) :
    state =
      if p.nextToken = none ∨ p.nextToken = some "" then .exhausted
      else if o.emitLimit.any (· ≤ s.itemsEmitted) then .limitReached
      else .userControlled := by
  simp only [← p.isLast_iff]
  unfold stopAfter? isReached at h
  grind

/-! ## Rounds -/

namespace Setup

variable (v : Setup α)

/-- The run, in at most `steps` rounds. -/
def run (steps : Nat) : Option (Summary × Trace α) :=
  Paging.run v.service v.cancelled v.options v.blank v.before steps

/-- The run goes on from a head, in at most `steps` rounds. -/
def runFrom (steps : Nat) (h : Head α) : Option (Summary × Trace α) :=
  Paging.runFrom v.service v.cancelled v.options v.blank steps h

/-- A round of the run. -/
def round (h : Head α) : Round α := Paging.round v.service v.cancelled v.options v.blank h

/-- The request that is sent from a head, and its answer. -/
def exchange (h : Head α) : Exchange α :=
  ⟨h.request v.options v.blank, v.service h.before (h.request v.options v.blank)⟩

/-- All that a round can do. -/
inductive RoundCases (h : Head α) : Round α → Prop
  | cancelled (hc : v.cancelled h.before = true) :
      RoundCases h (.stop (h.standing.stop .cancelled) [])
  | failed (hc : v.cancelled h.before = false) (reason : String)
      (ha : (v.exchange h).answer = .error reason) :
      RoundCases h (.stop (h.standing.stop .failed)
        [.fetch (h.request v.options v.blank), .error ⟨h.standing.pagesFetched + 1, reason⟩])
  | page (hc : v.cancelled h.before = false) (p : Page α) (ha : (v.exchange h).answer = .ok p)
      (state : State) (hs : v.options.stopAfter? p (h.standingAfter v.options p) = some state) :
      RoundCases h (.stop ((h.standingAfter v.options p).stop state)
        (h.events v.options v.blank p))
  | again (hc : v.cancelled h.before = false) (p : Page α) (ha : (v.exchange h).answer = .ok p)
      (hg : GoesOn v.options p) :
      RoundCases h (.again (h.next v.options v.blank p) (h.events v.options v.blank p))

/-- Every round is one of these. -/
theorem round_cases (h : Head α) : v.RoundCases h (v.round h) := by
  unfold round Paging.round
  cases hc : v.cancelled h.before with
  | true => exact .cancelled hc
  | false =>
      rw [if_neg Bool.false_ne_true]
      cases ha : v.service h.before (h.request v.options v.blank) with
      | error reason => exact .failed hc reason ha
      | ok p =>
          cases hs : v.options.stopAfter? p (h.standingAfter v.options p) with
          | some state => simpa only [hs] using .page hc p ha state hs
          | none =>
              have hg := (v.options.stopAfter?_eq_none_iff p _).mp hs
              simpa only [hs] using .again hc p ha hg

/-! ## Heads and exchanges -/

/-- Where the loop comes round after `k` pages, if it does. -/
def headAt? : Nat → Option (Head α)
  | 0 => some (.first v.options v.before)
  | k + 1 =>
    (headAt? k).bind fun h =>
      match v.round h with
      | .stop _ _ => none
      | .again next _ => some next

/-- The fetch that is made after `k` pages, if there is one. -/
def exchangeAt? (k : Nat) : Option (Exchange α) :=
  (v.headAt? k).bind fun h => if v.cancelled h.before then none else some (v.exchange h)

theorem exchangeAt?_eq_some_iff :
    v.exchangeAt? k = some x ↔
      ∃ h, v.headAt? k = some h ∧ v.cancelled h.before = false ∧ v.exchange h = x := by
  simp [exchangeAt?, Option.bind_eq_some_iff]

/-- The loop comes round again behind a fetch that answers a page with a token, when nobody
controls the paging, and only then. -/
theorem headAt?_succ_eq_some_iff :
    v.headAt? (k + 1) = some h' ↔
      ∃ h p, v.headAt? k = some h ∧ v.cancelled h.before = false ∧
        (v.exchange h).answer = .ok p ∧ GoesOn v.options p ∧
          h' = h.next v.options v.blank p := by
  rw [headAt?, Option.bind_eq_some_iff]
  refine exists_congr fun h => ?_
  have hcases := v.round_cases h
  generalize v.round h = r at hcases
  cases hcases with
  | cancelled hc => simp [hc]
  | failed hc reason ha => simp [ha]
  | page hc p ha state hs =>
      have hstop : ¬ GoesOn v.options p := fun hg => by
        simp [(v.options.stopAfter?_eq_none_iff p _).mpr hg] at hs
      simp [ha, hstop]
  | again hc p ha hg => simp [hc, ha, hg, eq_comm]

/-- A run that is over stays over. -/
theorem headAt?_eq_none_of_le (h : v.headAt? j = none) (hjk : j ≤ k) : v.headAt? k = none := by
  induction hjk with
  | refl => exact h
  | step _ ih => rw [headAt?, ih, Option.bind_none]

/-- A round that stops is the last one. -/
theorem headAt?_eq_none_of_stop (hh : v.headAt? k = some h)
    (hr : v.round h = .stop summary events) (hjk : k < j) : v.headAt? j = none := by
  refine v.headAt?_eq_none_of_le (j := k + 1) ?_ hjk
  rw [headAt?, hh, Option.bind_some, hr]

/-- A round that is not the last one is followed by another. -/
theorem exists_stop_of_headAt?_eq_none (h : v.headAt? (j + 1) = none) :
    ∃ k h summary events, k ≤ j ∧ v.headAt? k = some h ∧ v.round h = .stop summary events := by
  induction j with
  | zero =>
      cases hr : v.round (.first v.options v.before) with
      | stop summary events => exact ⟨0, _, summary, events, Nat.le_refl _, rfl, hr⟩
      | again next events => simp [headAt?, hr] at h
  | succ j ih =>
      cases hh : v.headAt? (j + 1) with
      | none =>
          obtain ⟨k, h', summary, events, hk, hstop⟩ := ih hh
          exact ⟨k, h', summary, events, by omega, hstop⟩
      | some h' =>
          cases hr : v.round h' with
          | stop summary events => exact ⟨j + 1, h', summary, events, Nat.le_refl _, hh, hr⟩
          | again next events =>
              rw [headAt?, hh, Option.bind_some, hr] at h
              contradiction

theorem headAt?_succ_of_again (hh : v.headAt? k = some h) (hr : v.round h = .again next events) :
    v.headAt? (k + 1) = some next := by
  rw [headAt?, hh, Option.bind_some, hr]

/-- The next round comes after the events of this one. -/
theorem before_of_again (hr : v.round h = .again next events) :
    next.before = h.before ++ events := by
  have hcases := v.round_cases h
  rw [hr] at hcases
  cases hcases with
  | again hc p ha hg => rfl

/-! ## Runs -/

/-- A round that stops ends the run, with its events. -/
theorem runFrom_of_stop (steps : Nat) (hr : v.round h = .stop summary events) :
    v.runFrom (steps + 1) h = some (summary, events) := by
  unfold round at hr
  rw [runFrom, Paging.runFrom, hr]

/-- A round that goes on puts its events in front of those that follow. -/
theorem runFrom_of_again (steps : Nat) (hr : v.round h = .again next events) :
    v.runFrom (steps + 1) h = (v.runFrom steps next).map fun (summary, later) =>
      (summary, events ++ later) := by
  unfold round at hr
  rw [runFrom, Paging.runFrom, hr]
  rfl

/-- A run that has an end is a row of rounds with a stop as its last, and its trace is all
that happened in them. -/
theorem exists_stop_of_runFrom (hh : v.headAt? j = some h)
    (hrun : v.runFrom steps h = some (summary, trace)) :
    ∃ k h' events, v.headAt? k = some h' ∧ v.round h' = .stop summary events ∧
      h.before ++ trace = h'.before ++ events := by
  induction steps generalizing j h trace with
  | zero => simp [runFrom, Paging.runFrom] at hrun
  | succ steps ih =>
      cases hr : v.round h with
      | stop summary' events =>
          rw [v.runFrom_of_stop steps hr] at hrun
          obtain ⟨rfl, rfl⟩ := Prod.mk.inj (Option.some.inj hrun)
          exact ⟨j, h, events, hh, hr, rfl⟩
      | again next events =>
          rw [v.runFrom_of_again steps hr, Option.map_eq_some_iff] at hrun
          obtain ⟨⟨summary', later⟩, hlater, heq⟩ := hrun
          obtain ⟨rfl, rfl⟩ := Prod.mk.inj heq
          have hnext := v.headAt?_succ_of_again hh hr
          obtain ⟨k, h', events', hk, hstop, htrace⟩ := ih hnext hlater
          refine ⟨k, h', events', hk, hstop, ?_⟩
          rw [← htrace, v.before_of_again hr, List.append_assoc]

/-- With enough steps a run gets to its stop. -/
theorem exists_runFrom_of_stop (hh : v.headAt? j = some h) (hk : k < steps)
    (hh' : v.headAt? (j + k) = some h') (hr' : v.round h' = .stop summary events) :
    ∃ trace, v.runFrom steps h = some (summary, trace) ∧
      h.before ++ trace = h'.before ++ events := by
  induction steps generalizing j k h with
  | zero => omega
  | succ steps ih =>
      cases k with
      | zero =>
          obtain rfl : h = h' := by simpa [hh] using hh'
          exact ⟨events, v.runFrom_of_stop steps hr', rfl⟩
      | succ k =>
          cases hr : v.round h with
          | stop summary' events' =>
              rw [v.headAt?_eq_none_of_stop hh hr (by omega)] at hh'
              contradiction
          | again next events' =>
              have hnext := v.headAt?_succ_of_again hh hr
              have hh' : v.headAt? (j + 1 + k) = some h' := by
                rwa [show j + 1 + k = j + (k + 1) by omega]
              obtain ⟨later, hlater, htrace⟩ := ih hnext (by omega) hh'
              refine ⟨events' ++ later, by rw [v.runFrom_of_again steps hr, hlater]; rfl, ?_⟩
              rw [← htrace, v.before_of_again hr, List.append_assoc]

/-- There is one stop. -/
theorem stop_unique (hh : v.headAt? j = some h) (hr : v.round h = .stop summary events)
    (hh' : v.headAt? k = some h') (hr' : v.round h' = .stop summary' events') :
    h = h' ∧ summary = summary' ∧ events = events' := by
  have hjk : j = k := by
    rcases Nat.lt_trichotomy j k with hlt | heq | hlt
    · simp [v.headAt?_eq_none_of_stop hh hr hlt] at hh'
    · exact heq
    · simp [v.headAt?_eq_none_of_stop hh' hr' hlt] at hh
  subst hjk
  obtain rfl : h = h' := by simpa [hh] using hh'
  simpa [hr] using hr'

/-- What a run comes to does not depend on how many steps it has. -/
theorem run_unique (hrun : v.run steps = some out) (hrun' : v.run steps' = some out') :
    out = out' := by
  obtain ⟨summary, trace⟩ := out
  obtain ⟨summary', trace'⟩ := out'
  obtain ⟨k, h, events, hh, hr, htrace⟩ := v.exists_stop_of_runFrom (j := 0) rfl hrun
  obtain ⟨k', h', events', hh', hr', htrace'⟩ := v.exists_stop_of_runFrom (j := 0) rfl hrun'
  obtain ⟨rfl, rfl, rfl⟩ := v.stop_unique hh hr hh' hr'
  rw [List.append_cancel_left (htrace.trans htrace'.symm)]

end Setup

end CmdletForge.Paging
