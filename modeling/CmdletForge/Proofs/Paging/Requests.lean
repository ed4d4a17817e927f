import Mathlib.Data.List.ReduceOption
import CmdletForge.Proofs.Paging.Pages

/-!
# CmdletForge.Proofs.Paging.Requests

What a run asks the service for.

1. A request carries the token of the page before it, and that page had one; the first request
   carries the token that the caller gave.
2. All requests of a run have one page size, the least of the bounds that are given.  The limit
   bounds it by what is left, but with a limit there is only the first request.
3. Whether there is a next request is decided by the last answer and by whether the run is
   cancelled when the loop comes round.  So a run has an end as soon as some answer is a
   failure or a page without a token.
-/

namespace CmdletForge.Paging

variable {α : Type}

/-! ## Page sizes -/

/-- The least of the bounds on a page that are given, if there are any. -/
def Options.pageBound (o : Options) : Option Nat :=
  [o.emitLimit, o.pageSizeCap].reduceOption.min?

theorem Options.pageSize_zero (o : Options) : o.pageSize 0 = o.pageBound := by
  unfold pageSize pageBound
  cases o.emitLimit <;> cases o.pageSizeCap <;> rfl

/-- Without a limit the page size does not depend on what was emitted. -/
theorem Options.pageSize_eq_of_not_callerControls {o : Options} (h : o.callerControls = false)
    (emitted : Nat) : o.pageSize emitted = o.pageBound := by
  have hlimit := (o.callerControls_eq_false_iff.mp h).2.1
  rw [← pageSize_zero, pageSize, pageSize, hlimit]
  rfl

/-! ## Requests of a trace -/

theorem requests_append (s t : Trace α) : requests (s ++ t) = requests s ++ requests t :=
  List.filterMap_append

theorem requests_pageEvents (o : Options) (xs : List α) (s : Standing) :
    requests (o.pageEvents xs s) = [] := by
  rw [requests, List.filterMap_eq_nil_iff]
  intro e he
  unfold Options.pageEvents at he
  cases e with
  | fetch r => split at he <;> simp at he
  | _ => rfl

theorem requests_events (o : Options) (blank : Request) (h : Head α) (p : Page α) :
    requests (h.events o blank p) = [h.request o blank] := by
  rw [Head.events, ← List.singleton_append, requests_append, requests_pageEvents]
  rfl

namespace Setup

variable (v : Setup α)

/-! ## Requests of a run -/

/-- The step from one request to the next. -/
theorem exchangeAt?_succ_eq_some (hx : v.exchangeAt? (k + 1) = some x) :
    ∃ y p, v.exchangeAt? k = some y ∧ y.answer = .ok p ∧ GoesOn v.options p ∧
      x.request.token = p.nextToken := by
  obtain ⟨h', hh', -, rfl⟩ := v.exchangeAt?_eq_some_iff.mp hx
  obtain ⟨h, p, hh, hc, ha, hg, rfl⟩ := v.headAt?_succ_eq_some_iff.mp hh'
  exact ⟨v.exchange h, p, v.exchangeAt?_eq_some_iff.mpr ⟨h, hh, hc, rfl⟩, ha, hg, rfl⟩

/-- Every round asks for as many items as the first. -/
theorem pageSize_of_headAt? (hh : v.headAt? k = some h) :
    v.options.pageSize h.standing.itemsEmitted = v.options.pageBound := by
  cases k with
  | zero =>
      obtain rfl : Head.first v.options v.before = h := by simpa [headAt?] using hh
      exact v.options.pageSize_zero
  | succ k =>
      obtain ⟨-, p, -, -, -, hg, -⟩ := v.headAt?_succ_eq_some_iff.mp hh
      exact Options.pageSize_eq_of_not_callerControls hg.uncontrolled _

/-- What happened before the loop comes round has the requests so far. -/
theorem requests_of_headAt? (hh : v.headAt? k = some h) :
    ∃ t, h.before = v.before ++ t ∧ (requests t).length = k ∧
      ∀ i < k, (requests t)[i]? = (v.exchangeAt? i).map (·.request) := by
  induction k generalizing h with
  | zero =>
      obtain rfl : Head.first v.options v.before = h := by simpa [headAt?] using hh
      exact ⟨[], (List.append_nil _).symm, rfl, by simp⟩
  | succ k ih =>
      obtain ⟨h₀, p, hh₀, hc, -, -, rfl⟩ := v.headAt?_succ_eq_some_iff.mp hh
      obtain ⟨t, hbefore, hlength, hrequests⟩ := ih hh₀
      refine ⟨t ++ h₀.events v.options v.blank p, ?_, ?_, fun i hi => ?_⟩
      · rw [Head.next, hbefore, List.append_assoc]
      · rw [requests_append, requests_events, List.length_append, hlength]
        rfl
      · rw [requests_append, requests_events]
        rcases Nat.lt_or_eq_of_le (Nat.le_of_lt_succ hi) with hlt | rfl
        · rw [List.getElem?_append_left (by omega), hrequests i hlt]
        · rw [v.exchangeAt?_eq_some_iff.mpr ⟨h₀, hh₀, hc, rfl⟩, ← hlength]
          simp [exchange]

/-- The last round makes one request, or none when the run is cancelled. -/
theorem requests_of_stop (hh : v.headAt? k = some h) (hr : v.round h = .stop summary events) :
    requests events = ((v.exchangeAt? k).map (·.request)).toList := by
  have hexchange := v.exchangeAt?_eq_some_iff (k := k) (x := v.exchange h)
  have hcases := v.round_cases h
  rw [hr] at hcases
  cases hcases with
  | cancelled hc => simp [exchangeAt?, hh, hc, requests]
  | failed hc reason ha =>
      rw [hexchange.mpr ⟨h, hh, hc, rfl⟩]
      rfl
  | page hc p ha state hs =>
      rw [hexchange.mpr ⟨h, hh, hc, rfl⟩, requests_events]
      rfl

/-- The requests in the trace of a run are those of its rounds. -/
theorem getElem?_requests_of_run (hrun : v.run steps = some (summary, trace)) (k : Nat) :
    (requests trace)[k]? = (v.exchangeAt? k).map (·.request) := by
  obtain ⟨n, h, events, hh, hr, htrace⟩ := v.exists_stop_of_runFrom (j := 0) rfl hrun
  obtain ⟨t, hbefore, rfl, hrequests⟩ := v.requests_of_headAt? hh
  have htrace : trace = t ++ events := by
    rw [hbefore, List.append_assoc] at htrace
    exact List.append_cancel_left htrace
  rw [htrace, requests_append, v.requests_of_stop hh hr]
  rcases Nat.lt_trichotomy k (requests t).length with hlt | rfl | hlt
  · rw [List.getElem?_append_left hlt, hrequests k hlt]
  · cases v.exchangeAt? (requests t).length <;> simp
  · have hnone : v.exchangeAt? k = none := by
      rw [exchangeAt?, v.headAt?_eq_none_of_stop hh hr hlt]
      rfl
    rw [hnone, List.getElem?_eq_none]
    · rfl
    · cases v.exchangeAt? (requests t).length <;> simp <;> omega

/-! ## Whether there is a next request -/

/-- The fetch after `k` pages answers a page with a token. -/
def AnswersToken (k : Nat) (t : String) : Prop :=
  ∃ x p, v.exchangeAt? k = some x ∧ x.answer = .ok p ∧ p.nextToken = some t ∧ t ≠ ""

/-- The run is not cancelled when its loop comes round after `k` pages. -/
def IsUncancelledAt (k : Nat) : Prop := ∀ h, v.headAt? k = some h → v.cancelled h.before = false

/-- The first request is made unless the run is cancelled before. -/
theorem isSome_exchangeAt?_zero : (v.exchangeAt? 0).isSome ↔ v.cancelled v.before = false := by
  rw [Option.isSome_iff_exists]
  simp [exchangeAt?_eq_some_iff, headAt?, Head.first]

/-- A caller who controls the paging gets no second request. -/
theorem exchangeAt?_succ_eq_none (hc : v.options.callerControls = true) (k : Nat) :
    v.exchangeAt? (k + 1) = none := by
  by_contra hsome
  obtain ⟨x, hx⟩ := Option.ne_none_iff_exists'.mp hsome
  obtain ⟨y, p, -, -, hg, -⟩ := v.exchangeAt?_succ_eq_some hx
  rw [hg.uncontrolled] at hc
  contradiction

theorem isUncancelledAt_of_isSome (h : (v.exchangeAt? k).isSome) : v.IsUncancelledAt k := by
  obtain ⟨x, hx⟩ := Option.isSome_iff_exists.mp h
  obtain ⟨h₀, hh₀, hc, -⟩ := v.exchangeAt?_eq_some_iff.mp hx
  intro h' hh'
  obtain rfl : h₀ = h' := Option.some.inj (hh₀.symm.trans hh')
  exact hc

/-- A later request is made only after an answer with a token. -/
theorem exists_answersToken_of_isSome (h : (v.exchangeAt? (k + 1)).isSome) :
    ∃ t, v.AnswersToken k t := by
  obtain ⟨x, hx⟩ := Option.isSome_iff_exists.mp h
  obtain ⟨y, p, hy, ha, hg, -⟩ := v.exchangeAt?_succ_eq_some hx
  obtain ⟨t, ht, hne⟩ := p.isLast_eq_false_iff.mp hg.hasToken
  exact ⟨t, y, p, hy, ha, ht, hne⟩

/-- **When nobody controls the paging**, there is a next request exactly when the last answer
has a token and the run is not cancelled. -/
theorem isSome_exchangeAt?_succ_iff (hfree : v.options.callerControls = false) (k : Nat) :
    (v.exchangeAt? (k + 1)).isSome ↔ (∃ t, v.AnswersToken k t) ∧ v.IsUncancelledAt (k + 1) := by
  constructor
  · intro h
    exact ⟨v.exists_answersToken_of_isSome h, v.isUncancelledAt_of_isSome h⟩
  · rintro ⟨⟨t, x, p, hx, ha, ht, hne⟩, hc⟩
    obtain ⟨h, hh, hc', rfl⟩ := v.exchangeAt?_eq_some_iff.mp hx
    have hg : GoesOn v.options p := ⟨p.isLast_eq_false_iff.mpr ⟨t, ht, hne⟩, hfree⟩
    have hnext := v.headAt?_succ_eq_some_iff.mpr ⟨h, p, hh, hc', ha, hg, rfl⟩
    rw [v.exchangeAt?_eq_some_iff.mpr ⟨_, hnext, hc _ hnext, rfl⟩]
    rfl

/-- Every request but the last has a page with a token for its answer, and the run was not
cancelled at any of them. -/
theorem of_isSome_exchangeAt? (h : (v.exchangeAt? k).isSome) :
    (∀ j < k, ∃ t, v.AnswersToken j t) ∧ ∀ j ≤ k, v.IsUncancelledAt j := by
  induction k with
  | zero =>
      refine ⟨by simp, fun j hj => ?_⟩
      obtain rfl : j = 0 := by omega
      exact v.isUncancelledAt_of_isSome h
  | succ k ih =>
      obtain ⟨t, ht⟩ := v.exists_answersToken_of_isSome h
      obtain ⟨x, -, hx, -⟩ := ht
      obtain ⟨htokens, hcs⟩ := ih (by rw [hx]; rfl)
      refine ⟨fun j hj => ?_, fun j hj => ?_⟩
      · rcases Nat.lt_or_eq_of_le (Nat.le_of_lt_succ hj) with hlt | rfl
        · exact htokens j hlt
        · exact v.exists_answersToken_of_isSome h
      · rcases Nat.lt_or_eq_of_le hj with hlt | rfl
        · exact hcs j (Nat.le_of_lt_succ hlt)
        · exact v.isUncancelledAt_of_isSome h

/-- A run has an end when one of its answers has no token. -/
theorem exists_run_of_not_answersToken (h : ∀ t, ¬ v.AnswersToken k t) :
    ∃ out, v.run (k + 1) = some out := by
  have hnone : v.headAt? (k + 1) = none := by
    by_contra hsome
    obtain ⟨h', hh'⟩ := Option.ne_none_iff_exists'.mp hsome
    obtain ⟨h₀, p, hh₀, hc, ha, hg, -⟩ := v.headAt?_succ_eq_some_iff.mp hh'
    obtain ⟨t, ht, hne⟩ := p.isLast_eq_false_iff.mp hg.hasToken
    exact h t ⟨_, p, v.exchangeAt?_eq_some_iff.mpr ⟨h₀, hh₀, hc, rfl⟩, ha, ht, hne⟩
  obtain ⟨j, h₀, summary, events, hj, hh₀, hr⟩ := v.exists_stop_of_headAt?_eq_none hnone
  obtain ⟨trace, hrun, -⟩ := v.exists_runFrom_of_stop (j := 0) rfl (Nat.lt_succ_of_le hj)
    (by simpa using hh₀) hr
  exact ⟨_, hrun⟩

/-- The service answers the call after `n` calls in this run, whatever it is, with a failure or
a page without a token. -/
def EndsAfter (n : Nat) : Prop :=
  ∀ t r p, (requests t).length = n → v.service (v.before ++ t) r = .ok p →
    p.nextToken = none ∨ p.nextToken = some ""

/-- A round that ends the run answers no token. -/
theorem not_answersToken_of_endsAfter (h : v.EndsAfter k) (t : String) : ¬ v.AnswersToken k t := by
  rintro ⟨x, p, hx, ha, ht, hne⟩
  obtain ⟨h₀, hh₀, -, rfl⟩ := v.exchangeAt?_eq_some_iff.mp hx
  obtain ⟨t', hbefore, hlength, -⟩ := v.requests_of_headAt? hh₀
  have hlast := h t' (h₀.request v.options v.blank) p hlength (hbefore ▸ ha)
  simp [ht, hne] at hlast

/-! ## The law of requests -/

/-- What is to be said of the requests of a run. -/
structure RequestLaw : Prop where
  /-- The trace of a run has the requests of its rounds, in order. -/
  requests_eq : ∀ steps summary trace, v.run steps = some (summary, trace) →
    ∀ k, (requests trace)[k]? = (v.exchangeAt? k).map (·.request)
  first_token : ∀ x, v.exchangeAt? 0 = some x → x.request.token = v.options.startToken
  /-- The next request carries the token of the last page as it came. -/
  next_token : ∀ k x, v.exchangeAt? (k + 1) = some x →
    ∃ t, x.request.token = some t ∧ v.AnswersToken k t
  /-- A request that has a member for it carries the least bound as its page size. -/
  pageSize_eq : ∀ k x, v.exchangeAt? k = some x →
    x.request.pageSize = if v.blank.sized then v.options.pageBound else v.blank.pageSize
  first_iff : (v.exchangeAt? 0).isSome ↔ v.cancelled v.before = false
  /-- A caller who controls the paging causes no other request. -/
  controlled : v.options.callerControls = true → ∀ k, v.exchangeAt? (k + 1) = none
  next_iff : v.options.callerControls = false → ∀ k,
    (v.exchangeAt? (k + 1)).isSome ↔ (∃ t, v.AnswersToken k t) ∧ v.IsUncancelledAt (k + 1)
  /-- Nothing is requested behind a failure, a page without a token or a cancellation. -/
  earlier : ∀ k, (v.exchangeAt? k).isSome →
    (∀ j < k, ∃ t, v.AnswersToken j t) ∧ ∀ j ≤ k, v.IsUncancelledAt j
  /-- A run has an end when one of its answers is a failure or a page without a token. -/
  terminates : ∀ k, (∀ t, ¬ v.AnswersToken k t) → ∃ out, v.run (k + 1) = some out
  /-- So it has with every service that comes to that after finitely many calls. -/
  terminates_of_endsAfter : ∀ n, v.EndsAfter n → ∃ out, v.run (n + 1) = some out

end Setup

/-- **The requests of a run**, for every service, whether the run has an end or not. -/
theorem requestLaw (v : Setup α) : v.RequestLaw where
  requests_eq _ _ _ hrun k := v.getElem?_requests_of_run hrun k
  first_token x hx := by
    obtain ⟨h, hh, -, rfl⟩ := v.exchangeAt?_eq_some_iff.mp hx
    obtain rfl : Head.first v.options v.before = h := by simpa [Setup.headAt?] using hh
    rfl
  next_token k x hx := by
    obtain ⟨y, p, hy, ha, hg, htoken⟩ := v.exchangeAt?_succ_eq_some hx
    obtain ⟨t, ht, hne⟩ := p.isLast_eq_false_iff.mp hg.hasToken
    exact ⟨t, htoken.trans ht, y, p, hy, ha, ht, hne⟩
  pageSize_eq k x hx := by
    obtain ⟨h, hh, -, rfl⟩ := v.exchangeAt?_eq_some_iff.mp hx
    rw [← v.pageSize_of_headAt? hh]
    rfl
  first_iff := v.isSome_exchangeAt?_zero
  controlled := v.exchangeAt?_succ_eq_none
  next_iff := v.isSome_exchangeAt?_succ_iff
  earlier _ := v.of_isSome_exchangeAt?
  terminates _ := v.exists_run_of_not_answersToken
  terminates_of_endsAfter _ h :=
    v.exists_run_of_not_answersToken (v.not_answersToken_of_endsAfter h)

end CmdletForge.Paging
