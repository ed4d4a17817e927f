import CmdletForge.Proofs.Paging.Delivery
import CmdletForge.Proofs.Paging.Requests

/-!
# CmdletForge.Proofs.Paging.Resuming

Paging by hand.

1. A caller who pages by hand makes a chain of runs, each with the token that the summary of
   the one before it has, until a run is exhausted.  There is at most one such chain
   (`Chain.unique`).
2. A run by hand fetches one page.  When a page depends on nothing but its token, that is the
   page that a run without a caller's control has in the round with the same token, so the
   chain goes along with the rounds that are left (`exists_chain_of_runFrom`).
3. A run that is cancelled comes by the heads of the run that is not, and its summary has the
   token of the last of them.
-/

namespace CmdletForge.Paging

variable {α : Type}

/-! ## Chains -/

/-- The tokens of the requests of a trace. -/
def tokens (t : Trace α) : List (Option String) := (requests t).map (·.token)

/-- The service never fails, and its answer is the page of the token. -/
def Service.IsByToken (service : Service α) (page : Option String → Page α) : Prop :=
  ∀ t r, service t r = .ok (page r.token)

namespace Setup

/-- The run with nobody to cancel it. -/
def uncancelled (v : Setup α) : Setup α := { v with cancelled := fun _ => false }

/-- The run with the switch for one page. -/
def manual (v : Setup α) : Setup α :=
  { v.uncancelled with options := { v.options with noAutoIteration := true } }

/-- The run that binds the token of a summary, after what happened up to there. -/
def resumed (v : Setup α) (summary : Summary) (trace : Trace α) : Setup α :=
  { v.uncancelled with
    options := { v.options with startToken := summary.nextToken, noAutoIteration := false }
    before := v.before ++ trace }

/-- The run has an end, with this summary and trace. -/
def ComesTo (v : Setup α) (out : Summary × Trace α) : Prop := ∃ steps, v.run steps = some out

/-- Runs, each with the token of the summary before it, up to the first that is exhausted. -/
inductive Chain : Setup α → List (Summary × Trace α) → Prop
  | stop (hrun : v.ComesTo (summary, trace)) (hstate : summary.state = .exhausted) :
      Chain v [(summary, trace)]
  | resume (hrun : v.ComesTo (summary, trace)) (hstate : summary.state ≠ .exhausted)
      (rest : Chain (v.resumed summary trace) outs) :
      Chain v ((summary, trace) :: outs)

/-- A run has one outcome. -/
theorem ComesTo.unique {v : Setup α} (h : v.ComesTo out) (h' : v.ComesTo out') : out = out' := by
  obtain ⟨steps, hrun⟩ := h
  obtain ⟨steps', hrun'⟩ := h'
  exact v.run_unique hrun hrun'

/-- There is one chain, since each run comes to one end. -/
theorem Chain.unique {v : Setup α} (h : Chain v outs) (h' : Chain v outs') : outs = outs' := by
  induction h generalizing outs' with
  | stop hrun hstate =>
      cases h' with
      | stop hrun' _ => rw [hrun.unique hrun']
      | resume hrun' hstate' _ =>
          obtain ⟨rfl, rfl⟩ := Prod.mk.inj (hrun.unique hrun')
          exact absurd hstate hstate'
  | resume hrun hstate _ ih =>
      cases h' with
      | stop hrun' hstate' =>
          obtain ⟨rfl, rfl⟩ := Prod.mk.inj (hrun.unique hrun')
          exact absurd hstate' hstate
      | resume hrun' _ rest' =>
          obtain ⟨rfl, rfl⟩ := Prod.mk.inj (hrun.unique hrun')
          rw [ih rest']

/-- The runs `outs` complete `fetched` pages with the trace `t` to a run with the summary
`summary` and the trace `trace`. -/
structure Completes (fetched : Nat) (t : Trace α) (outs : List (Summary × Trace α))
    (summary : Summary) (trace : Trace α) : Prop where
  /-- There is one run for each page that was not fetched. -/
  pagesFetched_eq : fetched + outs.length = summary.pagesFetched
  objects_eq : objects t ++ outs.flatMap (fun out => objects out.2) = objects trace
  tokens_eq : tokens t ++ outs.flatMap (fun out => tokens out.2) = tokens trace
  nextToken_eq : outs.getLast?.map (·.1.nextToken) = some summary.nextToken

theorem tokens_append (s t : Trace α) : tokens (s ++ t) = tokens s ++ tokens t := by
  rw [tokens, requests_append, List.map_append, ← tokens, ← tokens]

/-- What was on the trace before does not matter. -/
theorem Completes.append_left {outs : List (Summary × Trace α)}
    (h : Completes fetched [] outs summary trace) (t : Trace α) :
    Completes fetched t outs summary (t ++ trace) where
  pagesFetched_eq := h.pagesFetched_eq
  objects_eq := by rw [objects_append, ← h.objects_eq]; rfl
  tokens_eq := by rw [tokens_append, ← h.tokens_eq]; rfl
  nextToken_eq := h.nextToken_eq

/-- One run completes one page. -/
theorem completes_singleton (out : Summary × Trace α) (hpages : summary.pagesFetched = fetched + 1)
    (hobjects : objects out.2 = objects trace) (htokens : tokens out.2 = tokens trace)
    (hnext : out.1.nextToken = summary.nextToken) :
    Completes fetched [] [out] summary trace where
  pagesFetched_eq := hpages.symm
  objects_eq := by rw [List.flatMap_singleton, hobjects]; rfl
  tokens_eq := by rw [List.flatMap_singleton, htokens]; rfl
  nextToken_eq := congrArg some hnext

/-- The step of the induction: one more run goes ahead. -/
theorem Completes.cons {outs : List (Summary × Trace α)}
    (h : Completes (fetched + 1) [] outs summary trace) (out : Summary × Trace α)
    (hobjects : objects out.2 = objects events) (htokens : tokens out.2 = tokens events) :
    Completes fetched [] (out :: outs) summary (events ++ trace) where
  pagesFetched_eq := by rw [← h.pagesFetched_eq, List.length_cons]; omega
  objects_eq := by
    rw [objects_append, ← hobjects, ← h.objects_eq]
    rfl
  tokens_eq := by
    rw [tokens_append, ← htokens, ← h.tokens_eq]
    rfl
  nextToken_eq := by
    rw [← h.nextToken_eq]
    cases outs with
    | nil => simpa using h.nextToken_eq
    | cons out' outs => rw [List.getLast?_cons_cons]

/-! ## Runs by hand -/

/-- The run starts with the token `token` and fetches one page by it. -/
structure IsManual (w : Setup α) (page : Option String → Page α) (token : Option String) :
    Prop where
  byToken : w.service.IsByToken page
  uncancelled : ∀ t, w.cancelled t = false
  unlimited : w.options.emitLimit = none
  controlled : w.options.callerControls = true
  startToken_eq : w.options.startToken = token

/-- Nobody controls the paging of the run or cancels it. -/
structure IsFree (v : Setup α) (page : Option String → Page α) : Prop where
  byToken : v.service.IsByToken page
  uncancelled : ∀ t, v.cancelled t = false
  uncontrolled : v.options.callerControls = false

theorem tokens_events (o : Options) (blank : Request) (h : Head α) (p : Page α) :
    tokens (h.events o blank p) = [h.token] := by
  rw [tokens, requests_events]
  rfl

theorem objects_events_eq_shown (o : Options) (blank : Request) (h : Head α) (p : Page α) :
    objects (h.events o blank p) = h.shown o p := by
  rw [Head.events, ← List.singleton_append, objects_append, objects_pageEvents]
  rfl

/-- Without a limit the items of a page are handed on as they are. -/
theorem objects_events {o : Options} (hlimit : o.emitLimit = none) (blank : Request) (h : Head α)
    (p : Page α) : objects (h.events o blank p) = p.items := by
  rw [objects_events_eq_shown, Head.shown, Options.shown, hlimit]

/-- **A run by hand** fetches the page of its token. -/
theorem IsManual.comesTo {w : Setup α} (hw : w.IsManual page token) :
    ∃ summary trace, w.ComesTo (summary, trace) ∧
      (summary.state = .exhausted ↔ (page token).isLast = true) ∧
        summary.nextToken = (page token).nextToken ∧
          objects trace = (page token).items ∧ tokens trace = [token] := by
  have hcases := w.round_cases (.first w.options w.before)
  generalize hr : w.round (.first w.options w.before) = r at hcases
  have hanswer : (w.exchange (.first w.options w.before)).answer = .ok (page token) := by
    rw [← hw.startToken_eq]
    exact hw.byToken _ _
  cases hcases with
  | cancelled hc => simp [hw.uncancelled] at hc
  | failed _ _ ha => simp [ha] at hanswer
  | again _ _ _ hg => exact absurd (hw.controlled.symm.trans hg.uncontrolled) (by decide)
  | page _ p ha state hs =>
      obtain rfl : p = page token := by simpa [ha] using hanswer
      refine ⟨_, _, ⟨1, w.runFrom_of_stop 0 hr⟩, ?_, rfl,
        objects_events hw.unlimited _ _ _, ?_⟩
      · rw [Page.isLast_iff, Standing.stop, Options.eq_of_stopAfter?_eq_some hs, hw.unlimited]
        split <;> simp_all
      · rw [tokens_events, ← hw.startToken_eq]
        rfl

/-- A run that binds a token is by hand. -/
theorem isManual_resumed {v : Setup α} (hpage : v.service.IsByToken page)
    (hlimit : v.options.emitLimit = none) (hnext : summary.nextToken = some token)
    (trace : Trace α) : (v.resumed summary trace).IsManual page (some token) where
  byToken := hpage
  uncancelled _ := rfl
  unlimited := hlimit
  controlled := by simp [resumed, Options.callerControls, hnext]
  startToken_eq := hnext

/-- **The chain goes along with the rounds**: from a head on, the rounds that a run without
control has left are the runs of a chain that starts with the token of the head. -/
theorem exists_chain_of_runFrom {v w : Setup α} (hv : v.IsFree page)
    (hw : w.IsManual page h.token) (hrun : v.runFrom steps h = some (summary, trace))
    (hstate : summary.state = .exhausted) :
    ∃ outs, Chain w outs ∧ Completes h.standing.pagesFetched [] outs summary trace := by
  have hlimit := (v.options.callerControls_eq_false_iff.mp hv.uncontrolled).2.1
  induction steps generalizing h w trace with
  | zero => simp [runFrom, Paging.runFrom] at hrun
  | succ steps ih =>
      obtain ⟨summary₁, trace₁, hcomes, hlast, hnext, hobjects, htokens⟩ := hw.comesTo
      have hanswer : (v.exchange h).answer = .ok (page h.token) := hv.byToken _ _
      have hcases := v.round_cases h
      generalize hr : v.round h = r at hcases
      cases hcases with
      | cancelled hc => simp [hv.uncancelled] at hc
      | failed _ _ ha => simp [ha] at hanswer
      | page _ p ha state hs =>
          obtain rfl : p = page h.token := by simpa [ha] using hanswer
          rw [v.runFrom_of_stop steps hr] at hrun
          obtain ⟨rfl, rfl⟩ := Prod.mk.inj (Option.some.inj hrun)
          have hp : (page h.token).isLast = true := by
            rw [Page.isLast_iff]
            have hstop := Options.eq_of_stopAfter?_eq_some hs
            grind [Standing.stop]
          refine ⟨_, .stop hcomes (hlast.mpr hp), completes_singleton _ rfl ?_ ?_ hnext⟩
          · rw [hobjects, objects_events hlimit]
          · rw [htokens, tokens_events]
      | again _ p ha hg =>
          obtain rfl : p = page h.token := by simpa [ha] using hanswer
          rw [v.runFrom_of_again steps hr, Option.map_eq_some_iff] at hrun
          obtain ⟨⟨summary', later⟩, hlater, heq⟩ := hrun
          obtain ⟨rfl, rfl⟩ := Prod.mk.inj heq
          obtain ⟨token, htoken, -⟩ := (page h.token).isLast_eq_false_iff.mp hg.hasToken
          have hw' := isManual_resumed hw.byToken hw.unlimited (hnext.trans htoken) trace₁
          rw [← htoken] at hw'
          obtain ⟨outs, hchain, hcompletes⟩ := ih hw' hlater
          have hgoes : summary₁.state ≠ .exhausted := by simp [hlast, hg.hasToken]
          refine ⟨_, .resume hcomes hgoes hchain, hcompletes.cons (summary₁, trace₁) ?_ ?_⟩
          · rw [hobjects, objects_events hlimit]
          · rw [htokens, tokens_events]

/-! ## Cancelled runs -/

/-- As far as a run comes before it is cancelled, it comes by the heads of the run that is not. -/
theorem headAt?_uncancelled (v : Setup α) (hh : v.headAt? k = some h) :
    v.uncancelled.headAt? k = some h := by
  induction k generalizing h with
  | zero => exact hh
  | succ k ih =>
      obtain ⟨h₀, p, hh₀, -, ha, hg, rfl⟩ := v.headAt?_succ_eq_some_iff.mp hh
      exact v.uncancelled.headAt?_succ_eq_some_iff.mpr ⟨h₀, p, ih hh₀, rfl, ha, hg, rfl⟩

/-- A run that is cancelled stops at a head. -/
theorem exists_headAt?_of_cancelled {v : Setup α} (hrun : v.ComesTo (summary, trace))
    (hstate : summary.state = .cancelled) :
    ∃ k h, v.headAt? k = some h ∧ summary = h.standing.stop .cancelled ∧
      h.before = v.before ++ trace := by
  obtain ⟨steps, hrun⟩ := hrun
  obtain ⟨k, h, events, hh, hr, htrace⟩ := v.exists_stop_of_runFrom (j := 0) rfl hrun
  have hcases := v.round_cases h
  rw [hr] at hcases
  cases hcases with
  | cancelled hc => exact ⟨k, h, hh, rfl, by simpa [Head.first] using htrace.symm⟩
  | failed _ _ _ => simp [Standing.stop] at hstate
  | page _ p _ state hs =>
      have hstop := Options.eq_of_stopAfter?_eq_some hs
      grind [Standing.stop]

/-- Behind a page the token of the loop is the one that a summary has. -/
theorem token_of_headAt?_succ {v : Setup α} (hh : v.headAt? (k + 1) = some h) :
    ∃ t, h.token = some t ∧ h.standing.nextToken = some t := by
  obtain ⟨h₀, p, -, -, -, hg, rfl⟩ := v.headAt?_succ_eq_some_iff.mp hh
  obtain ⟨t, ht, -⟩ := p.isLast_eq_false_iff.mp hg.hasToken
  exact ⟨t, ht, ht⟩

/-- From every head that it comes by, a run goes on to its end. -/
theorem exists_runFrom_of_headAt? {v : Setup α} (hrun : v.ComesTo (summary, trace))
    (hh : v.headAt? k = some h) :
    ∃ steps later, v.runFrom steps h = some (summary, later) ∧
      h.before ++ later = v.before ++ trace := by
  obtain ⟨steps, hrun⟩ := hrun
  obtain ⟨n, h', events, hh', hr', htrace⟩ := v.exists_stop_of_runFrom (j := 0) rfl hrun
  have hkn : k ≤ n := by
    by_contra hlt
    rw [v.headAt?_eq_none_of_stop hh' hr' (Nat.lt_of_not_le hlt)] at hh
    contradiction
  rw [← Nat.add_sub_cancel' hkn] at hh'
  obtain ⟨later, hlater, hend⟩ := v.exists_runFrom_of_stop hh (Nat.lt_succ_self _) hh' hr'
  exact ⟨_, later, hlater, hend.trans htrace.symm⟩

/-- What is left of a run when it is cancelled behind a page is a chain that starts with the
token of the summary. -/
theorem exists_chain_of_cancelled {v : Setup α} (hv : v.uncancelled.IsFree page)
    (hrun : v.uncancelled.ComesTo (summary, trace)) (hstate : summary.state = .exhausted)
    (hrun' : v.ComesTo (summary', trace')) (hstate' : summary'.state = .cancelled)
    (hpages : 0 < summary'.pagesFetched) :
    ∃ outs, Chain (v.resumed summary' trace') outs ∧
      Completes summary'.pagesFetched trace' outs summary trace := by
  obtain ⟨k, h, hh, rfl, hbefore⟩ := exists_headAt?_of_cancelled hrun' hstate'
  obtain ⟨steps, later, hlater, hend⟩ := exists_runFrom_of_headAt? hrun (v.headAt?_uncancelled hh)
  have htrace : trace' ++ later = trace := by
    rw [hbefore, List.append_assoc] at hend
    exact List.append_cancel_left hend
  cases k with
  | zero =>
      obtain rfl : Head.first v.options v.before = h := by simpa [headAt?] using hh
      simp [Standing.stop, Head.first, Standing.start] at hpages
  | succ k =>
      obtain ⟨t, htoken, hnext⟩ := token_of_headAt?_succ hh
      have hlimit := (v.options.callerControls_eq_false_iff.mp hv.uncontrolled).2.1
      have hw : (v.resumed (h.standing.stop .cancelled) trace').IsManual page (some t) :=
        isManual_resumed hv.byToken hlimit hnext trace'
      rw [← htoken] at hw
      obtain ⟨outs, hchain, hcompletes⟩ := exists_chain_of_runFrom hv hw hlater hstate
      exact ⟨outs, hchain, htrace ▸ hcompletes.append_left trace'⟩

end Setup

/-- **Paging by hand comes to the same** as a run that nobody controls, when the service never
fails and a page depends on nothing but its token: the chain that starts with the switch for
one page completes that run, and so does the chain that goes on from the summary of a run that
was cancelled behind its first page or later, whenever that was. -/
theorem manual_paging (v : Setup α) (page : Option String → Page α)
    (hpage : v.service.IsByToken page) (hfree : v.options.callerControls = false)
    (hrun : v.uncancelled.ComesTo (summary, trace)) (hstate : summary.state = .exhausted) :
    ((∃ outs, Setup.Chain v.manual outs) ∧
      ∀ outs, Setup.Chain v.manual outs → Setup.Completes 0 [] outs summary trace) ∧
    ∀ summary' trace', v.ComesTo (summary', trace') → summary'.state = .cancelled →
      0 < summary'.pagesFetched →
      (∃ outs, Setup.Chain (v.resumed summary' trace') outs) ∧
        ∀ outs, Setup.Chain (v.resumed summary' trace') outs →
          Setup.Completes summary'.pagesFetched trace' outs summary trace := by
  have hv : v.uncancelled.IsFree page := ⟨hpage, fun _ => rfl, hfree⟩
  have hoptions := v.options.callerControls_eq_false_iff.mp hfree
  constructor
  · have hw : v.manual.IsManual page none :=
      ⟨hpage, fun _ => rfl, hoptions.2.1, by simp [Setup.manual, Options.callerControls],
        hoptions.1⟩
    rw [← hoptions.1] at hw
    obtain ⟨steps, hrun⟩ := hrun
    obtain ⟨outs, hchain, hcompletes⟩ := Setup.exists_chain_of_runFrom hv hw hrun hstate
    exact ⟨⟨outs, hchain⟩, fun outs' hchain' => hchain.unique hchain' ▸ hcompletes⟩
  · intro summary' trace' hrun' hstate' hpages
    obtain ⟨outs, hchain, hcompletes⟩ :=
      Setup.exists_chain_of_cancelled hv hrun hstate hrun' hstate' hpages
    exact ⟨⟨outs, hchain⟩, fun outs' hchain' => hchain.unique hchain' ▸ hcompletes⟩

/-- Three pages: one for no token, one for `"a"` and one for `"b"`. -/
def lettered : Option String → Page Nat
  | none => ⟨[1, 2], some "a"⟩
  | some "a" => ⟨[3], some "b"⟩
  | some _ => ⟨[4], some ""⟩

/-- A run over lettered pages that is cancelled when two of them have been fetched. -/
def lettering : Setup Nat where
  service := fun _ r => .ok (lettered r.token)
  cancelled := fun t => 2 ≤ (requests t).length
  options := ⟨none, none, false, none, defaultActivity⟩
  blank := ⟨none, none, false⟩
  before := []

theorem manual_lettering :
    ∃ outs rest, Setup.Chain lettering.manual outs ∧ outs.length = 3 ∧
      outs.flatMap (fun out => objects out.2) = [1, 2, 3, 4] ∧
        ∃ summary trace, lettering.ComesTo (summary, trace) ∧
          Setup.Chain (lettering.resumed summary trace) rest ∧ rest.length = 1 := by
  have hwhole : (lettering.uncancelled.run 3).isSome := by decide
  have hcut : (lettering.run 3).isSome := by decide
  obtain ⟨⟨⟨outs, hchain⟩, houts⟩, hcancelled⟩ :=
    manual_paging lettering lettered (fun _ _ => rfl) rfl
      ⟨3, (Option.some_get hwhole).symm⟩ (by decide)
  obtain ⟨⟨rest, hrest⟩, hrests⟩ :=
    hcancelled _ _ ⟨3, (Option.some_get hcut).symm⟩ (by decide) (by decide)
  have h := houts outs hchain
  have h' := hrests rest hrest
  have hlength : 0 + outs.length = 3 := h.pagesFetched_eq
  have hlength' : 2 + rest.length = 3 := h'.pagesFetched_eq
  exact ⟨outs, rest, hchain, by omega, h.objects_eq,
    _, _, ⟨3, (Option.some_get hcut).symm⟩, hrest, by omega⟩

end CmdletForge.Paging
