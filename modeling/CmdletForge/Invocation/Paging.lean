/-!
# CmdletForge.Invocation.Paging

Fetching an answer page by page.

1. A run fetches pages and hands their items on, until there is no further token, enough items
   were handed on, a fetch fails, or the run is cancelled.
2. A caller who binds a token, a limit or the switch for it controls the paging: one page is
   fetched, and its token is answered as it came.
3. A page has no further token when its token is absent or empty.
4. Whatever happens goes to a trace in order.  A service may answer by all that went before,
   and the same holds for when a run is cancelled, which is looked at before each fetch.
-/

namespace CmdletForge.Paging

/-! ## Services -/

/-- A request as the service gets it. -/
structure Request where
  token : Option String
  pageSize : Option Nat
  /-- Whether it has a member for the size of a page. -/
  sized : Bool
  deriving DecidableEq, Repr

/-- A request with a token, and with a page size if it has a member for that. -/
def Request.prepare (r : Request) (token : Option String) (pageSize : Option Nat) : Request :=
  { r with token := token, pageSize := if r.sized then pageSize else r.pageSize }

/-- A page of an answer. -/
structure Page (α : Type) where
  items : List α
  /-- The token for the next page, as the service gave it. -/
  nextToken : Option String
  deriving DecidableEq, Repr

/-- Whether a token asks for nothing. -/
def isFinal (token : Option String) : Bool := (token.getD "").isEmpty

def Page.isLast {α : Type} (p : Page α) : Bool := isFinal p.nextToken

/-- How far a run has come. -/
structure Progress where
  activity : String
  pagesFetched : Nat
  itemsEmitted : Nat
  deriving DecidableEq, Repr

def Progress.status (p : Progress) : String :=
  "Retrieved " ++ toString p.itemsEmitted ++ " records"

/-- A fetch that failed: the page that was asked for, and what the service said. -/
structure FetchFailure where
  page : Nat
  reason : String
  deriving DecidableEq, Repr

def FetchFailure.id (_ : FetchFailure) : String := "PageFetchFailed"

def FetchFailure.message (f : FetchFailure) : String :=
  "Failed to retrieve page " ++ toString f.page ++ ": " ++ f.reason

/-- Something that happens in a run. -/
inductive Event (α : Type) where
  | fetch (request : Request)
  | object (item : α)
  | progress (p : Progress)
  | error (f : FetchFailure)
  deriving DecidableEq, Repr

/-- All that happened, in order. -/
abbrev Trace (α : Type) := List (Event α)

/-- A service: what it answers to a request after all that happened. -/
abbrev Service (α : Type) := Trace α → Request → Except String (Page α)

/-- Whether a run is cancelled after all that happened. -/
abbrev Cancellation (α : Type) := Trace α → Bool

/-! ## Options -/

/-- How an invocation pages. -/
structure Options where
  startToken : Option String
  /-- How many items are handed on at most. -/
  emitLimit : Option Nat
  /-- Whether only one page is wanted. -/
  noAutoIteration : Bool
  /-- The largest page that the service accepts. -/
  pageSizeCap : Option Nat
  activity : String
  deriving DecidableEq, Repr

/-- What a run is called when nothing else is said. -/
def defaultActivity : String := "Retrieving results"

namespace Options

def callerControls (o : Options) : Bool :=
  o.startToken.isSome || o.emitLimit.isSome || o.noAutoIteration

/-- The size of the next page, when `emitted` items have been handed on: what is left of the
limit, and no more than the service accepts. -/
def pageSize (o : Options) (emitted : Nat) : Option Nat :=
  match o.emitLimit.map (· - emitted), o.pageSizeCap with
  | some left, some cap => some (min left cap)
  | some left, none => some left
  | none, cap => cap

/-- The items of a page that are handed on, when `emitted` items have been already. -/
def shown {α : Type} (o : Options) (emitted : Nat) (items : List α) : List α :=
  match o.emitLimit with
  | some limit => items.take (limit - emitted)
  | none => items

/-- Whether `emitted` items are enough. -/
def isReached (o : Options) (emitted : Nat) : Bool := o.emitLimit.any (· ≤ emitted)

end Options

/-! ## Runs -/

/-- Why a run stopped. -/
inductive State where
  | exhausted
  | limitReached
  | userControlled
  | cancelled
  | failed
  deriving DecidableEq, Repr

/-- What a run comes to. -/
structure Summary where
  state : State
  pagesFetched : Nat
  itemsEmitted : Nat
  /-- The token of the last page. -/
  nextToken : Option String
  deriving DecidableEq, Repr

/-- Where a run stands between two pages. -/
structure Standing where
  pagesFetched : Nat
  itemsEmitted : Nat
  nextToken : Option String
  deriving DecidableEq, Repr

/-- No page has been fetched. -/
def Standing.start : Standing := ⟨0, 0, none⟩

/-- The summary of a run that stops. -/
def Standing.stop (s : Standing) (state : State) : Summary :=
  ⟨state, s.pagesFetched, s.itemsEmitted, s.nextToken⟩

/-- The standing behind a page of which the items `shown` were handed on. -/
def Standing.after {α : Type} (s : Standing) (p : Page α) (shown : List α) : Standing :=
  ⟨s.pagesFetched + 1, s.itemsEmitted + shown.length, p.nextToken⟩

/-- Why a run stops behind a page, if it does. -/
def Options.stopAfter? {α : Type} (o : Options) (p : Page α) (s : Standing) : Option State :=
  if p.isLast then some .exhausted
  else if o.isReached s.itemsEmitted then some .limitReached
  else if o.callerControls then some .userControlled
  else none

/-- What happens when a page is handed on. -/
def Options.pageEvents {α : Type} (o : Options) (shown : List α) (s : Standing) : Trace α :=
  shown.map .object ++
    if o.callerControls then []
    else [.progress ⟨o.activity, s.pagesFetched, s.itemsEmitted⟩]

/-- Where a run stands when its loop comes round. -/
structure Head (α : Type) where
  /-- All that happened. -/
  before : Trace α
  /-- The token of the next request. -/
  token : Option String
  standing : Standing
  deriving DecidableEq, Repr

namespace Head

variable {α : Type}

/-- The loop of a run comes round for the first time. -/
def first (o : Options) (before : Trace α) : Head α := ⟨before, o.startToken, .start⟩

def request (o : Options) (blank : Request) (h : Head α) : Request :=
  blank.prepare h.token (o.pageSize h.standing.itemsEmitted)

/-- The items of the next page that are handed on. -/
def shown (o : Options) (h : Head α) (p : Page α) : List α :=
  o.shown h.standing.itemsEmitted p.items

/-- The standing behind the next page. -/
def standingAfter (o : Options) (h : Head α) (p : Page α) : Standing :=
  h.standing.after p (h.shown o p)

/-- What happens when the next page is fetched and handed on. -/
def events (o : Options) (blank : Request) (h : Head α) (p : Page α) : Trace α :=
  .fetch (h.request o blank) :: o.pageEvents (h.shown o p) (h.standingAfter o p)

/-- Where the loop comes round behind the next page. -/
def next (o : Options) (blank : Request) (h : Head α) (p : Page α) : Head α :=
  ⟨h.before ++ h.events o blank p, p.nextToken, h.standingAfter o p⟩

end Head

/-- What a round of the loop comes to, with what happens in it. -/
inductive Round (α : Type) where
  /-- The run stops. -/
  | stop (summary : Summary) (events : Trace α)
  /-- The loop comes round again. -/
  | again (next : Head α) (events : Trace α)
  deriving DecidableEq, Repr

/-- One round of the loop: unless the run is cancelled, a page is fetched and handed on. -/
def round {α : Type} (service : Service α) (cancelled : Cancellation α) (o : Options)
    (blank : Request) (h : Head α) : Round α :=
  if cancelled h.before then .stop (h.standing.stop .cancelled) []
  else
    match service h.before (h.request o blank) with
    | .error reason =>
      .stop (h.standing.stop .failed)
        [.fetch (h.request o blank), .error ⟨h.standing.pagesFetched + 1, reason⟩]
    | .ok page =>
      match o.stopAfter? page (h.standingAfter o page) with
      | some state => .stop ((h.standingAfter o page).stop state) (h.events o blank page)
      | none => .again (h.next o blank page) (h.events o blank page)

/-- Goes on with a run: what it comes to, and what happens from here.  There is no answer when
it does not stop within `steps` rounds. -/
def runFrom {α : Type} (service : Service α) (cancelled : Cancellation α) (o : Options)
    (blank : Request) : (steps : Nat) → Head α → Option (Summary × Trace α)
  | 0, _ => none
  | steps + 1, h =>
    match round service cancelled o blank h with
    | .stop summary events => some (summary, events)
    | .again next events =>
      (runFrom service cancelled o blank steps next).map fun (summary, later) =>
        (summary, events ++ later)

/-- A run: what it comes to, and what happens. -/
def run {α : Type} (service : Service α) (cancelled : Cancellation α) (o : Options)
    (blank : Request) (before : Trace α) (steps : Nat) : Option (Summary × Trace α) :=
  runFrom service cancelled o blank steps (.first o before)

/-! ## Views of a trace -/

/-- The requests of a trace. -/
def requests {α : Type} (t : Trace α) : List Request :=
  t.filterMap fun
    | .fetch r => some r
    | _ => none

/-- The items of a trace. -/
def objects {α : Type} (t : Trace α) : List α :=
  t.filterMap fun
    | .object x => some x
    | _ => none

/-! ## Scripted services -/

/-- The service that answers with the pages of a list, one for each request that it ever got,
and fails behind the last one. -/
def scripted {α : Type} (pages : List (Except String (Page α))) : Service α := fun before _ =>
  (pages[(requests before).length]?).getD (.error "no more scripted pages")

/-- When a run is cancelled: at once, with a fetch, or with an object, counted from one over the
whole trace. -/
structure Signal where
  atOnce : Bool
  onFetch : Option Nat
  onObject : Option Nat

def Signal.isGiven {α : Type} (s : Signal) (t : Trace α) : Bool :=
  let met (n : Nat) (count : Nat) : Bool := 0 < n && n ≤ count
  s.atOnce || (s.onFetch.any fun n => met n (requests t).length) ||
    s.onObject.any fun n => met n (objects t).length

end CmdletForge.Paging
