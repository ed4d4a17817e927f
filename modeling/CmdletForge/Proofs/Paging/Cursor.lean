import CmdletForge.Proofs.Paging.Resuming

/-!
# CmdletForge.Proofs.Paging.Cursor

Paging through a list with limits.

1. A service is a cursor over a list when its pages are consecutive pieces of the list: a token
   stands for an offset, and a page is no longer than the page size that is set
   (`IsCursorPage`).
2. A run drops the items of a page beyond its limit, but its summary has the token behind the
   whole page.  Nothing is lost all the same, because the page size that a run sets is at most
   what is left of its limit (`Options.length_le_of_pageSize`).  A request without a member for
   the page size does not carry it, which matters under a limit only.  So a page of a cursor is
   always handed on as it is (`IsCursor.shown_eq`), and a run comes by the offsets of its tokens
   (`Reads`).
3. A relay is a chain of runs with limits of their own, each of which goes on from the summary
   of the run before it.  `reads_of_isRelay` joins their objects.
-/

namespace CmdletForge.Paging

variable {α : Type} {xs : List α} {offset : String → Nat}

/-! ## Cursors -/

/-- The offset for which a token stands; without a token that is the start. -/
def position (offset : String → Nat) (token : Option String) : Nat := token.elim 0 offset

/-- A page of a cursor over `xs`, as the answer to a token and a page size. -/
structure IsCursorPage (xs : List α) (offset : String → Nat) (token : Option String)
    (size : Option Nat) (p : Page α) : Prop where
  /-- The items are the next ones of the list. -/
  items_prefix : p.items <+: xs.drop (position offset token)
  length_le : ∀ n, size = some n → p.items.length ≤ n
  /-- Before the end of the list the next token stands for the offset behind the page. -/
  nextToken_of_lt : position offset token + p.items.length < xs.length →
    ∃ t, p.nextToken = some t ∧ t ≠ "" ∧ offset t = position offset token + p.items.length
  nextToken_of_ge : xs.length ≤ position offset token + p.items.length → p.nextToken = none

namespace IsCursorPage

/-- The items of a page follow the ones in front of its position. -/
theorem take_append (hp : IsCursorPage xs offset token size p) :
    xs.take (position offset token) ++ p.items =
      xs.take (position offset token + p.items.length) := by
  rw [List.take_add, ← List.prefix_iff_eq_take.mp hp.items_prefix]

/-- The next token stands behind the items of the page. -/
theorem offset_of_nextToken (hp : IsCursorPage xs offset token size p)
    (ht : p.nextToken = some t) :
    offset t = position offset token + p.items.length ∧ offset t < xs.length := by
  rcases Nat.lt_or_ge (position offset token + p.items.length) xs.length with hlt | hge
  · obtain ⟨t', ht', -, hoffset⟩ := hp.nextToken_of_lt hlt
    obtain rfl : t' = t := Option.some.inj (ht'.symm.trans ht)
    exact ⟨hoffset, hoffset ▸ hlt⟩
  · rw [hp.nextToken_of_ge hge] at ht
    contradiction

/-- The last page of a cursor is the one that comes to the end of the list. -/
theorem isLast_iff (hp : IsCursorPage xs offset token size p) :
    p.isLast = true ↔ xs.length ≤ position offset token + p.items.length := by
  rw [Page.isLast_iff]
  constructor
  · intro hlast
    by_contra hlt
    obtain ⟨t, ht, hne, -⟩ := hp.nextToken_of_lt (Nat.lt_of_not_le hlt)
    simp [ht, hne] at hlast
  · exact fun hge => .inl (hp.nextToken_of_ge hge)

end IsCursorPage

/-! ## Page sizes and limits -/

/-- The page size is at most what is left of the limit. -/
theorem Options.length_le_of_pageSize {o : Options} {count limit : Nat} {items : List α}
    (hlimit : o.emitLimit = some limit)
    (h : ∀ n, o.pageSize count = some n → items.length ≤ n) : items.length ≤ limit - count := by
  cases hcap : o.pageSizeCap with
  | none => exact h _ (by simp [Options.pageSize, hlimit, hcap])
  | some cap =>
      have hmin := h (min (limit - count) cap) (by simp [Options.pageSize, hlimit, hcap])
      exact Nat.le_trans hmin (Nat.min_le_left _ _)

/-- Items within what is left of the limit are handed on as they are. -/
theorem Options.shown_eq_self {o : Options} {count : Nat} {items : List α}
    (h : ∀ limit, o.emitLimit = some limit → items.length ≤ limit - count) :
    o.shown count items = items := by
  unfold Options.shown
  cases hlimit : o.emitLimit with
  | none => rfl
  | some limit => exact List.take_of_length_le (h limit hlimit)

namespace Setup

/-! ## Runs over a cursor -/

/-- A request of a run, for a token and by how many items were handed on. -/
def requestFor (v : Setup α) (token : Option String) (count : Nat) : Request :=
  v.blank.prepare token (v.options.pageSize count)

/-- To the requests of a run the service answers as a cursor over `xs`, if it does not fail. -/
structure IsCursor (v : Setup α) (xs : List α) (offset : String → Nat) : Prop where
  /-- A page goes by the token and by the page size that the request carries. -/
  page : ∀ t token count p, v.service t (v.requestFor token count) = .ok p →
    IsCursorPage xs offset token (v.requestFor token count).pageSize p
  /-- A request that has no member for the page size does not tell it.  Under a limit the service
  must then keep to it of its own accord. -/
  within_limit : v.blank.sized = false → ∀ t token count p limit,
    v.service t (v.requestFor token count) = .ok p → v.options.emitLimit = some limit →
    p.items.length ≤ limit - count

/-- A service that goes by the page size in its requests is a cursor for a run whose requests have
a member for it, and for one without a limit. -/
theorem isCursor_of_carried {v : Setup α}
    (hcarried : v.blank.sized = true ∨ v.options.emitLimit = none)
    (h : ∀ t r p, v.service t r = .ok p → IsCursorPage xs offset r.token r.pageSize p) :
    v.IsCursor xs offset where
  page t token count p hp := h t _ p hp
  within_limit hsized t token count p limit hp hlimit := by
    rcases hcarried with hsized' | hnone
    · simp [hsized] at hsized'
    · simp [hnone] at hlimit

/-- A run stands behind the trace `t` of its own, in which it handed on what lies between the
offset of its first token and that of its next one. -/
structure Reads (v : Setup α) (xs : List α) (offset : String → Nat) (h : Head α)
    (t : Trace α) : Prop where
  before_eq : h.before = v.before ++ t
  objects_eq : xs.take (position offset v.options.startToken) ++ objects t =
    xs.take (position offset h.token)
  token_lt : ∀ token, h.token = some token → offset token < xs.length

variable {v : Setup α}

/-- The answer to a request of a run over a cursor is a page of the cursor. -/
theorem IsCursor.exists_page (hv : v.IsCursor xs offset) (ha : (v.exchange h).answer = .ok p) :
    ∃ size, IsCursorPage xs offset h.token size p :=
  ⟨_, hv.page _ _ _ _ ha⟩

/-- **A page of a cursor is handed on as it is.** -/
theorem IsCursor.shown_eq (hv : v.IsCursor xs offset) (ha : (v.exchange h).answer = .ok p) :
    h.shown v.options p = p.items := by
  apply Options.shown_eq_self
  intro limit hlimit
  cases hsized : v.blank.sized with
  | true =>
      apply Options.length_le_of_pageSize hlimit
      have hcarried : (v.requestFor h.token h.standing.itemsEmitted).pageSize =
          v.options.pageSize h.standing.itemsEmitted := by
        rw [requestFor, Request.prepare, if_pos hsized]
      rw [← hcarried]
      exact (hv.page _ _ _ _ ha).length_le
  | false => exact hv.within_limit hsized _ _ _ _ limit ha hlimit

/-- The step of the induction: the items of a page go on where the head stands. -/
theorem Reads.objects_append_events (hr : v.Reads xs offset h t)
    (hp : IsCursorPage xs offset h.token size p) (hshown : h.shown v.options p = p.items) :
    xs.take (position offset v.options.startToken) ++
        objects (t ++ h.events v.options v.blank p) =
      xs.take (position offset h.token + p.items.length) := by
  rw [objects_append, objects_events_eq_shown, hshown, ← List.append_assoc, hr.objects_eq,
    hp.take_append]

/-- **A run over a cursor** hands on the list from its first offset up to the next one, wherever
its loop comes round. -/
theorem IsCursor.exists_reads (hv : v.IsCursor xs offset)
    (hstart : ∀ token, v.options.startToken = some token → offset token < xs.length)
    (hh : v.headAt? k = some h) : ∃ t, v.Reads xs offset h t := by
  induction k generalizing h with
  | zero =>
      obtain rfl : Head.first v.options v.before = h := by simpa [headAt?] using hh
      exact ⟨[], (List.append_nil _).symm, List.append_nil _, hstart⟩
  | succ k ih =>
      obtain ⟨h₀, p, hh₀, -, ha, hg, rfl⟩ := v.headAt?_succ_eq_some_iff.mp hh
      obtain ⟨t, ht⟩ := ih hh₀
      obtain ⟨size, hp⟩ := hv.exists_page ha
      obtain ⟨token, htoken, -⟩ := p.isLast_eq_false_iff.mp hg.hasToken
      refine ⟨t ++ h₀.events v.options v.blank p, ?_, ?_, ?_⟩
      · rw [Head.next, ht.before_eq, List.append_assoc]
      · rw [ht.objects_append_events hp (hv.shown_eq ha), ← (hp.offset_of_nextToken htoken).1]
        simp [Head.next, htoken, position]
      · exact fun token' htoken' => (hp.offset_of_nextToken htoken').2

end Setup

/-- What has been read of `xs` when a run ends with the summary `summary`: everything when it is
exhausted, and otherwise all before the offset of its token. -/
structure ReadsUpTo (xs : List α) (offset : String → Nat) (summary : Summary)
    (items : List α) : Prop where
  of_open : summary.state ≠ .exhausted →
    ∃ t, summary.nextToken = some t ∧ offset t < xs.length ∧ items = xs.take (offset t)
  of_exhausted : summary.state = .exhausted → items = xs

namespace Setup

variable {v : Setup α}

/-- A run that stops at the head of a later page has read up to there. -/
theorem Reads.readsUpTo_of_stop {h : Head α} (hr : v.Reads xs offset h t)
    (hh : v.headAt? k = some h) (hpages : 0 < h.standing.pagesFetched)
    (hstate : state ≠ .exhausted) :
    ReadsUpTo xs offset (h.standing.stop state)
      (xs.take (position offset v.options.startToken) ++ objects t) := by
  refine ⟨fun _ => ?_, fun h => absurd h hstate⟩
  cases k with
  | zero =>
      obtain rfl : Head.first v.options v.before = h := by simpa [headAt?] using hh
      simp [Head.first, Standing.start] at hpages
  | succ k =>
      obtain ⟨token, htoken, hnext⟩ := token_of_headAt?_succ hh
      refine ⟨token, hnext, hr.token_lt _ htoken, ?_⟩
      rw [hr.objects_eq, htoken]
      rfl

/-- A run that stops behind a page has read up to the end of the page. -/
theorem Reads.readsUpTo_of_page (hr : v.Reads xs offset h t)
    (hp : IsCursorPage xs offset h.token size p) (hshown : h.shown v.options p = p.items)
    (hs : v.options.stopAfter? p (h.standingAfter v.options p) = some state) :
    ReadsUpTo xs offset ((h.standingAfter v.options p).stop state)
      (xs.take (position offset v.options.startToken) ++
        objects (t ++ h.events v.options v.blank p)) := by
  have hexhausted : state = .exhausted ↔ p.isLast = true := by
    rw [Page.isLast_iff, Options.eq_of_stopAfter?_eq_some hs]
    split <;> rename_i hlast
    · exact iff_of_true rfl hlast
    · refine iff_of_false ?_ hlast
      split <;> simp
  rw [hr.objects_append_events hp hshown]
  constructor
  · intro hopen
    have hlast : p.isLast = false := by simpa [Standing.stop, hexhausted] using hopen
    obtain ⟨token, htoken, -⟩ := p.isLast_eq_false_iff.mp hlast
    obtain ⟨hoffset, hlt⟩ := hp.offset_of_nextToken htoken
    exact ⟨token, htoken, hlt, by rw [hoffset]⟩
  · intro hdone
    exact List.take_of_length_le (hp.isLast_iff.mp (hexhausted.mp hdone))

/-- **One run**: what it hands on goes on where its first token stands. -/
theorem IsCursor.readsUpTo (hv : v.IsCursor xs offset)
    (hstart : ∀ token, v.options.startToken = some token → offset token < xs.length)
    (hrun : v.ComesTo (summary, trace)) (hpages : 0 < summary.pagesFetched) :
    ReadsUpTo xs offset summary
      (xs.take (position offset v.options.startToken) ++ objects trace) := by
  obtain ⟨steps, hrun⟩ := hrun
  obtain ⟨k, h, events, hh, hr, htrace⟩ := v.exists_stop_of_runFrom (j := 0) rfl hrun
  obtain ⟨t, ht⟩ := hv.exists_reads hstart hh
  have htrace : trace = t ++ events := by
    rw [ht.before_eq, List.append_assoc] at htrace
    exact List.append_cancel_left htrace
  have hcases := v.round_cases h
  rw [hr] at hcases
  cases hcases with
  | cancelled _ =>
      rw [htrace, List.append_nil]
      exact ht.readsUpTo_of_stop hh hpages (by simp)
  | failed _ reason _ =>
      have hobjects : objects trace = objects t := by
        rw [htrace, objects_append]
        exact List.append_nil _
      rw [hobjects]
      exact ht.readsUpTo_of_stop hh hpages (by simp)
  | page _ p ha state hs =>
      obtain ⟨size, hp⟩ := hv.exists_page ha
      rw [htrace]
      exact ht.readsUpTo_of_page hp (hv.shown_eq ha) hs

end Setup

/-! ## Relays -/

/-- A run of a relay, with what it comes to. -/
structure Leg (α : Type) where
  setup : Setup α
  summary : Summary
  trace : Trace α

/-- All that happens in some runs. -/
def joined (legs : List (Leg α)) : Trace α := legs.flatMap (·.trace)

/-- The run `leg` goes on behind the runs `done`, of which none is exhausted, and fetches a page
at least.  How it is bounded and when it is cancelled is its own affair. -/
structure Leg.Follows (service : Service α) (before : Trace α) (done : List (Leg α))
    (leg : Leg α) : Prop where
  done_open : ∀ l ∈ done, l.summary.state ≠ .exhausted
  service_eq : leg.setup.service = service
  before_eq : leg.setup.before = before ++ joined done
  /-- It starts with the token of the last summary, and the first run with none. -/
  startToken_eq : leg.setup.options.startToken = done.getLast?.bind (·.summary.nextToken)
  comesTo : leg.setup.ComesTo (leg.summary, leg.trace)
  pagesFetched_pos : 0 < leg.summary.pagesFetched

/-- Runs that follow one another. -/
def IsRelay (service : Service α) (before : Trace α) (legs : List (Leg α)) : Prop :=
  ∀ done leg, done ++ [leg] <+: legs → leg.Follows service before done

theorem isRelay_nil (service : Service α) (before : Trace α) : IsRelay service before [] := by
  intro done leg hp
  simp at hp

/-- One more run makes a longer relay. -/
theorem IsRelay.append_singleton {service : Service α} {before : Trace α} {done : List (Leg α)}
    (h : IsRelay service before done) (leg : Leg α) (hf : leg.Follows service before done) :
    IsRelay service before (done ++ [leg]) := by
  intro d l hp
  rcases List.prefix_concat_iff.mp hp with heq | hp
  · obtain ⟨rfl, rfl⟩ := List.append_inj' heq rfl |>.imp_right List.singleton_inj.mp
    exact hf
  · exact h d l hp

theorem joined_append_singleton (legs : List (Leg α)) (leg : Leg α) :
    joined (legs ++ [leg]) = joined legs ++ leg.trace := by
  rw [joined, List.flatMap_append, List.flatMap_singleton, ← joined]

variable {service : Service α} {before : Trace α}

/-- The step from one run to the next. -/
theorem Leg.Follows.readsUpTo {leg : Leg α} (hf : leg.Follows service before done)
    (hv : leg.setup.IsCursor xs offset)
    (hlt : ∀ token, done.getLast?.bind (·.summary.nextToken) = some token →
      offset token < xs.length)
    (hdone : objects (joined done) =
      xs.take (position offset (done.getLast?.bind (·.summary.nextToken)))) :
    ReadsUpTo xs offset leg.summary (objects (joined (done ++ [leg]))) := by
  rw [← hf.startToken_eq] at hlt hdone
  rw [joined_append_singleton, objects_append, hdone]
  exact hv.readsUpTo hlt hf.comesTo hf.pagesFetched_pos

/-- As long as no run is exhausted, the list is read up to the token of the last one. -/
theorem IsRelay.objects_of_open {legs : List (Leg α)} (h : IsRelay service before legs)
    (hv : ∀ leg ∈ legs, leg.setup.IsCursor xs offset)
    (hopen : ∀ l ∈ legs, l.summary.state ≠ .exhausted) :
    (∀ token, legs.getLast?.bind (·.summary.nextToken) = some token → offset token < xs.length) ∧
      objects (joined legs) =
        xs.take (position offset (legs.getLast?.bind (·.summary.nextToken))) := by
  induction legs using List.reverseRecOn with
  | nil => exact ⟨by simp, rfl⟩
  | append_singleton done leg ih =>
      have hf := h done leg (List.prefix_refl _)
      obtain ⟨hlt, hdone⟩ := ih (fun d l hp => h d l (hp.trans (List.prefix_append _ _)))
        (fun l hl => hv l (List.mem_append_left _ hl)) hf.done_open
      have hread := hf.readsUpTo (hv leg (by simp)) hlt hdone
      obtain ⟨t, ht, hlt, hobjects⟩ := hread.of_open (hopen leg (by simp))
      rw [List.getLast?_concat, Option.bind_some, ht]
      refine ⟨fun token htoken => ?_, hobjects⟩
      obtain rfl := Option.some.inj htoken
      exact hlt

/-- **Limits lose nothing and repeat nothing** on a service that goes by the page sizes: behind
every run of a relay over a cursor the objects of all runs so far are the list up to the token
of the summary, and the whole list when the run is exhausted.  Each run may have a limit, a
largest page and the switch for one page as it likes, and may be cancelled at any time. -/
theorem reads_of_isRelay (legs : List (Leg α)) (h : IsRelay service before legs)
    (hv : ∀ leg ∈ legs, leg.setup.IsCursor xs offset) :
    ∀ done leg, done ++ [leg] <+: legs →
      ReadsUpTo xs offset leg.summary (objects (joined (done ++ [leg]))) := by
  intro done leg hp
  have hf := h done leg hp
  have hmem : ∀ l ∈ done ++ [leg], l ∈ legs := fun l hl => hp.subset hl
  have hdone : IsRelay service before done := fun d l hd =>
    h d l (hd.trans ((List.prefix_append _ _).trans hp))
  obtain ⟨hlt, hobjects⟩ := hdone.objects_of_open
    (fun l hl => hv l (hmem l (List.mem_append_left _ hl))) hf.done_open
  exact hf.readsUpTo (hv leg (hmem leg (by simp))) hlt hobjects

/-! A cursor over four items, with a letter for each offset. -/

/-- The offset of a letter. -/
def letterOffset (token : String) : Nat := ["a", "b", "c", "d"].idxOf token

/-- The page of four items that a request asks for, of two items when it sets no size. -/
def letterPage (r : Request) : Page Nat :=
  let start := position letterOffset r.token
  let items := ([10, 20, 30, 40].drop start).take (r.pageSize.getD 2)
  ⟨items, ["a", "b", "c", "d"][start + items.length]?⟩

/-- The letters are a cursor over the four items. -/
theorem isCursorPage_letterPage (r : Request) :
    IsCursorPage [10, 20, 30, 40] letterOffset r.token r.pageSize (letterPage r) where
  items_prefix := List.take_prefix _ _
  length_le n hn := by
    rw [letterPage, hn]
    exact List.length_take_le _ _
  nextToken_of_lt hlt := by
    have hletter : ∀ n < 4,
        ∃ t, ["a", "b", "c", "d"][n]? = some t ∧ t ≠ "" ∧ letterOffset t = n := by
      decide
    exact hletter _ hlt
  nextToken_of_ge hge := List.getElem?_eq_none hge

/-- A run over the four items that is cancelled behind the request with number `last`. -/
def letterRun (last : Nat) (o : Options) (sized : Bool) (before : Trace Nat) : Setup Nat where
  service := fun _ r => .ok (letterPage r)
  cancelled := fun t => last ≤ (requests t).length
  options := o
  blank := ⟨none, none, sized⟩
  before := before

/-- A run that is cancelled behind its first page, one with the limit zero, one with a limit
under its largest page, and one by the switch, whose requests have no member for its largest
page. -/
def letterLegs : List (Leg Nat) :=
  let first : Trace Nat :=
    [.fetch ⟨none, some 1, true⟩, .object 10, .progress ⟨defaultActivity, 1, 1⟩]
  let second : Trace Nat := [.fetch ⟨some "b", some 0, true⟩]
  let third : Trace Nat := [.fetch ⟨some "b", some 1, true⟩, .object 20]
  let fourth : Trace Nat := [.fetch ⟨some "c", none, false⟩, .object 30, .object 40]
  [⟨letterRun 1 ⟨none, none, false, some 1, defaultActivity⟩ true [],
      ⟨.cancelled, 1, 1, some "b"⟩, first⟩,
    ⟨letterRun 9 ⟨some "b", some 0, false, some 5, defaultActivity⟩ true first,
      ⟨.limitReached, 1, 0, some "b"⟩, second⟩,
    ⟨letterRun 9 ⟨some "b", some 1, false, some 5, defaultActivity⟩ true (first ++ second),
      ⟨.limitReached, 1, 1, some "c"⟩, third⟩,
    ⟨letterRun 9 ⟨some "c", none, true, some 1, defaultActivity⟩ false
        (first ++ second ++ third),
      ⟨.exhausted, 1, 2, none⟩, fourth⟩]

/-- The legs are a relay, each from the last token of the one before. -/
theorem isRelay_letterLegs : IsRelay (fun _ r => .ok (letterPage r)) [] letterLegs := by
  have h₁ := (isRelay_nil (fun _ r => .ok (letterPage r)) []).append_singleton letterLegs[0]
    ⟨by decide, rfl, rfl, rfl, ⟨2, by decide⟩, by decide⟩
  have h₂ := h₁.append_singleton letterLegs[1]
    ⟨by decide, rfl, rfl, rfl, ⟨2, by decide⟩, by decide⟩
  have h₃ := h₂.append_singleton letterLegs[2]
    ⟨by decide, rfl, rfl, rfl, ⟨2, by decide⟩, by decide⟩
  exact h₃.append_singleton letterLegs[3]
    ⟨by decide, rfl, rfl, rfl, ⟨2, by decide⟩, by decide⟩

theorem reads_of_letterLegs :
    IsRelay (fun _ r => .ok (letterPage r)) [] letterLegs ∧
      objects (joined (letterLegs.take 3)) = [10, 20] ∧
        objects (joined letterLegs) = [10, 20, 30, 40] := by
  have hcursor : ∀ leg ∈ letterLegs, leg.setup.IsCursor [10, 20, 30, 40] letterOffset := by
    intro leg hleg
    have hcarried : (leg.setup.blank.sized = true ∨ leg.setup.options.emitLimit = none) ∧
        leg.setup.service = fun _ r => .ok (letterPage r) := by
      simp only [letterLegs, List.mem_cons, List.not_mem_nil, or_false] at hleg
      rcases hleg with rfl | rfl | rfl | rfl <;> exact ⟨by decide, rfl⟩
    refine Setup.isCursor_of_carried hcarried.1 fun t r p hp => ?_
    obtain rfl : letterPage r = p := by simpa [hcarried.2] using hp
    exact isCursorPage_letterPage r
  have hreads := reads_of_isRelay letterLegs isRelay_letterLegs hcursor
  have hlimited := hreads (letterLegs.take 2) letterLegs[2] (List.take_prefix 3 letterLegs)
  have hlast := hreads (letterLegs.take 3) letterLegs[3] (List.prefix_refl _)
  refine ⟨isRelay_letterLegs, ?_, hlast.of_exhausted rfl⟩
  obtain ⟨t, ht, -, hobjects⟩ := hlimited.of_open (by decide)
  obtain rfl : "c" = t := Option.some.inj ht
  exact hobjects

/-- Under a limit, and without a member for the page size, an item is lost: the limit drops it,
and the token stands behind it. -/
example :
    run (fun _ r => .ok (letterPage r)) (fun _ => false)
        ⟨none, some 1, false, none, defaultActivity⟩ ⟨none, none, false⟩ [] 2 =
      some (⟨.limitReached, 1, 1, some "c"⟩, [.fetch ⟨none, none, false⟩, .object 10]) := by
  decide

end CmdletForge.Paging
