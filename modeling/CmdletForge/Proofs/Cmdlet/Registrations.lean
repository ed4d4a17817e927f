import Mathlib.Data.Finset.Card
import CmdletForge.Cmdlet.Registry

/-!
# CmdletForge.Proofs.Cmdlet.Registrations

What a registry says after registrations in turn.

1. A registration is seen at its own route and nowhere else (`emitter?_register`).  So each route
   has the emitter of the last registration for it (`IsProper.emitter?_eq_some_iff`), and two
   registrations for different routes may change places (`emitter?_registerAll_swap`).
2. No route stands in a registry twice (`IsProper.registerAll`), so there are as many entries as
   there are different routes in all registrations (`IsProper.size_registerAll`).
3. What handles a property is the emitter of exactly its route, then that of any operation, then the
   default one.  An emitter that is registered for a route counts even if it is the default one
   (`registrationLaw`).
-/

namespace CmdletForge.Cmdlet.Registry

def routesOf (entries : List (Route × Emitter)) : List Route := entries.map Prod.fst

/-- No route stands in the registry twice. -/
def IsProper (r : Registry) : Prop := (routesOf r.entries).Nodup

instance : DecidablePred IsProper := fun r => inferInstanceAs (Decidable (routesOf r.entries).Nodup)

/-- The last of some registrations for a route is with this emitter. -/
def IsLast (history : List (Route × Emitter)) (route : Route) (e : Emitter) : Prop :=
  ∃ before after, history = before ++ (route, e) :: after ∧ ∀ x ∈ after, x.1 ≠ route

/-- None of some registrations is for the route. -/
def IsFree (history : List (Route × Emitter)) (route : Route) : Prop :=
  ∀ x ∈ history, x.1 ≠ route

/-! ## One registration -/

section
variable (route : Route) (e : Emitter) (entries : List (Route × Emitter))

/-- Looking a route up in a list with one entry more. -/
theorem lookup_cons_eq (entry : Route × Emitter) :
    (entry :: entries).lookup route =
      if route = entry.1 then some entry.2 else entries.lookup route := by
  obtain ⟨first, old⟩ := entry
  rw [List.lookup_cons]
  by_cases hfirst : route = first
  · simp [hfirst]
  · simp [beq_eq_false_iff_ne.mpr hfirst, hfirst]

/-- A registration changes the answer for its own route only. -/
theorem lookup_put (other : Route) :
    (put route e entries).lookup other =
      if other = route then some e else entries.lookup other := by
  induction entries with
  | nil => simp [put, lookup_cons_eq]
  | cons entry rest ih =>
    obtain ⟨first, old⟩ := entry
    by_cases hfirst : first = route
    · subst hfirst
      by_cases hother : other = first <;> simp [put, lookup_cons_eq, hother]
    · by_cases hother : other = first
      · simp [put, hother, hfirst]
      · simp [put, lookup_cons_eq, hother, hfirst, ih]

/-- A registration adds its own route only. -/
theorem mem_routesOf_put (other : Route) :
    other ∈ routesOf (put route e entries) ↔ other = route ∨ other ∈ routesOf entries := by
  induction entries with
  | nil => simp [put, routesOf]
  | cons entry rest ih =>
    obtain ⟨first, old⟩ := entry
    simp only [routesOf] at ih
    by_cases hfirst : first = route
    · simp [put, routesOf, hfirst]
    · simp [put, routesOf, hfirst, ih, or_left_comm]

/-- A registry keeps one entry a route. -/
theorem nodup_routesOf_put (h : (routesOf entries).Nodup) :
    (routesOf (put route e entries)).Nodup := by
  induction entries with
  | nil => simp [put, routesOf]
  | cons entry rest ih =>
    obtain ⟨first, old⟩ := entry
    have hcons : first ∉ routesOf rest ∧ (routesOf rest).Nodup := List.nodup_cons.mp h
    by_cases hfirst : first = route
    · subst hfirst
      rw [put, if_pos rfl]
      exact h
    · have hput : first ∉ routesOf (put route e rest) := by
        simp [mem_routesOf_put, hfirst, hcons.1]
      rw [put, if_neg hfirst]
      exact List.nodup_cons.mpr ⟨hput, ih hcons.2⟩

/-- **A registration is seen at its route and nowhere else.** -/
theorem emitter?_register (r : Registry) (other : Route) :
    (r.register route e).emitter? other = if other = route then some e else r.emitter? other :=
  lookup_put route e r.entries other

end

/-! ## Registrations in turn -/

section
variable (r : Registry) (later : List (Route × Emitter))

/-- The last of a list of registrations comes last. -/
theorem registerAll_append_singleton (x : Route × Emitter) :
    r.registerAll (later ++ [x]) = (r.registerAll later).register x.1 x.2 :=
  List.foldl_append ..

/-- The emitter of a route is that of the last registration, or the one that it had before. -/
theorem emitter?_registerAll (route : Route) :
    (r.registerAll later).emitter? route =
      (later.reverse.lookup route).or (r.emitter? route) := by
  induction later using List.reverseRecOn with
  | nil => rfl
  | append_singleton later x ih =>
    rw [registerAll_append_singleton, emitter?_register, ih, List.reverse_append,
      List.reverse_singleton, List.singleton_append, lookup_cons_eq]
    split <;> simp

/-- The routes are those of the registry and of the registrations. -/
theorem mem_routesOf_registerAll {route : Route} :
    route ∈ routesOf (r.registerAll later).entries ↔ route ∈ routesOf (r.entries ++ later) := by
  induction later using List.reverseRecOn with
  | nil => rw [List.append_nil]; rfl
  | append_singleton later x ih =>
    have hput := mem_routesOf_put x.1 x.2 (r.registerAll later).entries route
    rw [registerAll_append_singleton]
    refine hput.trans ?_
    rw [ih]
    simp [routesOf, or_comm, or_assoc]

variable {r later}

/-- **No route comes to stand in a registry twice.** -/
theorem IsProper.registerAll (h : r.IsProper) (later : List (Route × Emitter)) :
    (r.registerAll later).IsProper := by
  induction later using List.reverseRecOn with
  | nil => exact h
  | append_singleton later x ih =>
    rw [registerAll_append_singleton]
    exact nodup_routesOf_put x.1 x.2 _ ih

/-- With one entry a route the order of the entries does not matter. -/
theorem lookup_reverse {entries : List (Route × Emitter)} (h : (routesOf entries).Nodup)
    (route : Route) : entries.reverse.lookup route = entries.lookup route := by
  induction entries with
  | nil => rfl
  | cons entry rest ih =>
    obtain ⟨first, e⟩ := entry
    obtain ⟨hfirst, hrest⟩ : first ∉ routesOf rest ∧ (routesOf rest).Nodup :=
      List.nodup_cons.mp h
    rw [List.reverse_cons, List.lookup_append, ih hrest, lookup_cons_eq, lookup_cons_eq]
    by_cases hroute : route = first
    · have hnone : rest.lookup route = none := by
        rw [List.lookup_eq_none_iff]
        intro x hx
        have hother : x.1 ∈ routesOf rest := List.mem_map_of_mem hx
        exact bne_iff_ne.mpr fun heq => hfirst (hroute ▸ heq ▸ hother)
      rw [if_pos hroute, if_pos hroute, hnone, Option.none_or]
    · rw [if_neg hroute, if_neg hroute, List.lookup_nil, Option.or_none]

/-- The emitter of a route, from all registrations. -/
theorem IsProper.emitter?_eq (h : r.IsProper) (later : List (Route × Emitter)) (route : Route) :
    (r.registerAll later).emitter? route = (r.entries ++ later).reverse.lookup route := by
  rw [emitter?_registerAll, List.reverse_append, List.lookup_append, lookup_reverse h, emitter?]

/-- **Each route has the emitter of the last registration for it.** -/
theorem IsProper.emitter?_eq_some_iff (h : r.IsProper) :
    (r.registerAll later).emitter? route = some e ↔ IsLast (r.entries ++ later) route e := by
  rw [h.emitter?_eq, List.lookup_eq_some_iff, IsLast]
  constructor
  · rintro ⟨after, before, hreverse, hafter⟩
    refine ⟨before.reverse, after.reverse, ?_, ?_⟩
    · simpa using congrArg List.reverse hreverse
    · simpa [bne_iff_ne, ne_comm] using hafter
  · rintro ⟨before, after, hhistory, hafter⟩
    refine ⟨after.reverse, before.reverse, ?_, ?_⟩
    · simp [hhistory]
    · simpa [bne_iff_ne, ne_comm] using hafter

/-- A route has no emitter exactly when nothing registers it. -/
theorem IsProper.emitter?_eq_none_iff (h : r.IsProper) :
    (r.registerAll later).emitter? route = none ↔ IsFree (r.entries ++ later) route := by
  rw [h.emitter?_eq, List.lookup_eq_none_iff, IsFree]
  simp only [List.mem_reverse, bne_iff_ne, ne_comm]

/-- **There are as many entries as there are routes** in all registrations. -/
theorem IsProper.size_registerAll (h : r.IsProper) (later : List (Route × Emitter)) :
    (r.registerAll later).size = (routesOf (r.entries ++ later)).toFinset.card := by
  have hroutes : (routesOf (r.registerAll later).entries).toFinset =
      (routesOf (r.entries ++ later)).toFinset := by
    ext route
    simp only [List.mem_toFinset, mem_routesOf_registerAll]
  rw [← hroutes, List.toFinset_card_of_nodup (h.registerAll later), routesOf, List.length_map, size]

/-- **Two registrations for different routes may change places.** -/
theorem emitter?_registerAll_swap {a b : Route × Emitter} (h : a.1 ≠ b.1) (r : Registry)
    (before after : List (Route × Emitter)) (route : Route) :
    (r.registerAll (before ++ b :: a :: after)).emitter? route =
      (r.registerAll (before ++ a :: b :: after)).emitter? route := by
  have hpair : [a, b].lookup route = [b, a].lookup route := by
    by_cases ha : route = a.1
    · subst ha
      simp [lookup_cons_eq, h]
    · simp [lookup_cons_eq, ha]
  simp only [emitter?_registerAll, List.reverse_append, List.reverse_cons, List.append_assoc,
    List.singleton_append, List.lookup_append]
  rw [hpair]

end

/-! ## Resolving -/

section
variable {r : Registry} {route : Route}

/-- An emitter registered for the route itself is taken. -/
theorem resolve_of_emitter? (h : r.emitter? route = some e) : r.resolve route = e := by
  rw [resolve, h]
  rfl

/-- Without one, the emitter for any operation is taken, and else the default. -/
theorem resolve_of_none (h : r.emitter? route = none) :
    r.resolve route =
      (r.emitter? { route with operation := anyOperation }).getD .default := by
  rw [resolve, h]
  rfl

end

/-! ## The law of registrations -/

/-- What is to be said of registrations in turn, which follow those that a registry has from the
start. -/
structure RegistrationLaw (start : Registry) (later : List (Route × Emitter)) : Prop where
  /-- A property is handled by the last emitter for exactly its route, whichever this is... -/
  atRoute : ∀ route e, IsLast (start.entries ++ later) route e →
    (start.registerAll later).resolve route = e
  /-- ...else by the last one for the route with any operation... -/
  atAnyOperation : ∀ route e, IsFree (start.entries ++ later) route →
    IsLast (start.entries ++ later) { route with operation := anyOperation } e →
      (start.registerAll later).resolve route = e
  /-- ...else by the default one. -/
  otherwise : ∀ route, IsFree (start.entries ++ later) route →
    IsFree (start.entries ++ later) { route with operation := anyOperation } →
      (start.registerAll later).resolve route = .default
  /-- There are as many entries as there are different routes in all registrations. -/
  size_eq : (start.registerAll later).size = (routesOf (start.entries ++ later)).toFinset.card
  /-- When two registrations for different routes change places, all is handled as before. -/
  swap : ∀ before a b after, later = before ++ a :: b :: after → a.1 ≠ b.1 → ∀ route,
    (start.registerAll (before ++ b :: a :: after)).resolve route =
      (start.registerAll later).resolve route

/-- The law holds from every registry with one entry a route. -/
theorem registrationLaw_of_isProper {start : Registry} (h : start.IsProper)
    (later : List (Route × Emitter)) : RegistrationLaw start later := by
  refine ⟨fun route e hlast => ?atRoute, fun route e hfree hlast => ?atAnyOperation,
    fun route hfree hany => ?otherwise, h.size_registerAll later, ?swap⟩
  case atRoute => exact resolve_of_emitter? (h.emitter?_eq_some_iff.mpr hlast)
  case atAnyOperation =>
    rw [resolve_of_none (h.emitter?_eq_none_iff.mpr hfree), h.emitter?_eq_some_iff.mpr hlast]
    rfl
  case otherwise =>
    rw [resolve_of_none (h.emitter?_eq_none_iff.mpr hfree), h.emitter?_eq_none_iff.mpr hany]
    rfl
  case swap =>
    rintro before a b after rfl hne route
    simp only [resolve, emitter?_registerAll_swap hne]

/-- **The law of registrations**, for a registry that is empty and for the one with the emitters
that are always registered. -/
theorem registrationLaw (later : List (Route × Emitter)) :
    RegistrationLaw .empty later ∧ RegistrationLaw .builtin later := by
  have hempty : empty.IsProper := List.nodup_nil
  have hbuiltin : builtin.IsProper := by decide +kernel
  exact ⟨registrationLaw_of_isProper hempty later, registrationLaw_of_isProper hbuiltin later⟩

/-- The default emitter may be registered for a route that another one is registered for with any
operation. -/
example :
    let route : Route := ⟨"S3", "PutObject", "UseDualstackEndpoint"⟩
    (builtin.register route .default).resolve route = .default ∧
      builtin.resolve route = .dualstack := by
  decide +kernel

end CmdletForge.Cmdlet.Registry
