import CmdletForge.Proofs.Xml.Elements

/-!
# CmdletForge.Proofs.Xml.Insides

Elements that have no other elements in them.

1. `Flat` says that no element of a name has a child, and what stands in each of them: runs of
   text, CDATA sections, comments and instructions.
2. The text of such an element are the characters of its runs and its CDATA sections
   (`characters`).  It is the text of the element that is read (`Flat.map_characters`).
-/

namespace CmdletForge.Xml

/-! ## What stands between tags -/

namespace Event

/-- The event is a tag. -/
def IsTag : Event → Prop
  | .start _ | .empty _ | .finish _ => True
  | _ => False

instance : DecidablePred IsTag
  | .start _ | .empty _ | .finish _ => isTrue trivial
  | .text _ | .cdata _ | .doctype | .aside => isFalse id

/-- The event is the tag of an empty element of the name. -/
def IsEmptyOf (name : List Char) : Event → Prop
  | .empty content => tagName content = name
  | _ => False

instance (name : List Char) : DecidablePred (IsEmptyOf name)
  | .empty content => inferInstanceAs (Decidable (tagName content = name))
  | .text _ | .start _ | .finish _ | .cdata _ | .doctype | .aside => isFalse id

end Event

/-- What a run of text stands for, when its entities can be read. -/
def decoded (raw : List Char) : List Char := (unescape raw).toOption.getD []

def Event.characters : Event → List Char
  | .text raw => decoded raw
  | .cdata cs => cs
  | _ => []

/-- The characters that stand between two tags. -/
def characters (inside : List Event) : List Char := inside.flatMap Event.characters

/-- What an event stands for, when it is a run of text. -/
def Event.run? : Event → Option String
  | .text raw => some (String.ofList (decoded raw))
  | _ => none

/-- A start tag is no text. -/
theorem Event.Opens.run?_eq_none {name : List Char} {e : Event} (h : e.Opens name) :
    e.run? = none := by
  cases e with
  | text raw => exact h.elim
  | _ => rfl

/-- The runs of text that stand between two tags. -/
def runs (inside : List Event) : List String := inside.filterMap Event.run?

theorem characters_append (xs ys : List Event) :
    characters (xs ++ ys) = characters xs ++ characters ys :=
  List.flatMap_append

theorem characters_cons (e : Event) (es : List Event) :
    characters (e :: es) = e.characters ++ characters es :=
  List.flatMap_cons

/-! ## Elements without children -/

/-- The elements of the name have no children; `insides` is what stands in each of them. -/
inductive Flat (name : List Char) : List Event → List (List Event) → Prop
  | nil : Flat name [] []
  | empty {e : Event} {rest : List Event} {insides : List (List Event)} (he : e.IsEmptyOf name)
      (hrest : Flat name rest insides) : Flat name (e :: rest) ([] :: insides)
  | element {e : Event} {inside rest : List Event} {insides : List (List Event)}
      (he : e.Opens name) (hinside : ∀ e ∈ inside, ¬ e.IsTag) (hrest : Flat name rest insides) :
      Flat name (e :: (inside ++ .finish name :: rest)) (inside :: insides)
  | other {e : Event} {rest : List Event} {insides : List (List Event)} (hopens : ¬ e.Opens name)
      (hempty : ¬ e.IsEmptyOf name) (hrest : Flat name rest insides) :
      Flat name (e :: rest) insides

section
variable {name : List Char} {e : Event} {inside rest : List Event} {insides : List (List Event)}

/-- What stands in an element up to its end tag is read as its characters. -/
theorem exists_elementsFrom_inside (wanted : List Char) (hinside : ∀ e ∈ inside, ¬ e.IsTag)
    (hdecodes : ∀ e ∈ inside, e.Decodes) (f : Frame) (found : List Char) (rest : List Event) :
    ∃ more, elementsFrom wanted [f] (inside ++ .finish found :: rest) =
        (f.add more).content :: elementsFrom wanted [] rest ∧
      Content.charactersAll more = String.ofList (characters inside) := by
  induction inside generalizing f with
  | nil => exact ⟨[], by simp [elementsFrom, grow, Frame.add], rfl⟩
  | cons e inside ih =>
    rw [List.forall_mem_cons] at hinside hdecodes
    -- the event adds what it stands for, and leaves the element open
    have hstep : ∃ more, grow wanted [f] e = ([f.add more], []) ∧
        Content.charactersAll more = String.ofList e.characters := by
      cases e with
      | text raw =>
        have hdecodes' : (unescape raw).isOk = true := hdecodes.1
        cases hraw : unescape raw with
        | error fault =>
          rw [hraw] at hdecodes'
          contradiction
        | ok cs =>
          refine ⟨[.text (String.ofList cs)], by simp [grow, hraw], ?_⟩
          simp [Content.charactersAll, Content.characters, Event.characters, decoded, hraw,
            Except.toOption]
      | cdata cs =>
        refine ⟨[.text (String.ofList cs)], rfl, ?_⟩
        simp [Content.charactersAll, Content.characters, Event.characters]
      | doctype | aside => exact ⟨[], by simp [grow, Frame.add], rfl⟩
      | _ => exact absurd trivial hinside.1
    obtain ⟨first, hgrow, hfirst⟩ := hstep
    obtain ⟨more, hrest, hmore⟩ := ih hinside.2 hdecodes.2 (f.add first)
    refine ⟨first ++ more, ?_, ?_⟩
    · rw [List.cons_append, elementsFrom, hgrow, List.nil_append, hrest, Frame.add_add]
    · rw [Content.charactersAll_append, hfirst, hmore, characters_cons, String.ofList_append]

/-- **The texts of elements without children** are the characters that stand in them. -/
theorem Flat.map_characters {events : List Event} (h : Flat name events insides)
    (hdecodes : ∀ inside ∈ insides, ∀ e ∈ inside, e.Decodes) :
    (elementsFrom name [] events).map Content.characters =
      insides.map fun inside => String.ofList (characters inside) := by
  induction h with
  | nil => rfl
  | @empty e rest insides he hrest ih =>
    rw [List.forall_mem_cons] at hdecodes
    cases e with
    | empty content =>
      have hname : tagName content = name := he
      rw [elementsFrom, grow, if_pos hname, List.map_append, ih hdecodes.2]
      rfl
    | _ => exact he.elim
  | @element e inside rest insides he hinside hrest ih =>
    rw [List.forall_mem_cons] at hdecodes
    cases e with
    | start content =>
      have hname : tagName content = name := he
      obtain ⟨more, hmore, hcharacters⟩ := exists_elementsFrom_inside name hinside
        hdecodes.1 (.ofTag content) name rest
      rw [elementsFrom, grow, if_pos hname, List.nil_append, hmore, List.map_cons, List.map_cons,
        ih hdecodes.2, ← hcharacters]
      rfl
    | _ => exact he.elim
  | @other e rest insides hopens hempty hrest ih =>
    have hgrow : grow name [] e = ([], []) := by
      cases e with
      | start content => simp [grow, show ¬ tagName content = name from hopens]
      | empty content => simp [grow, show ¬ tagName content = name from hempty]
      | _ => rfl
    rw [elementsFrom, hgrow, List.nil_append]
    exact ih hdecodes

end

end CmdletForge.Xml
