import Mathlib.Data.List.TakeWhile
import CmdletForge.Source.Code
import CmdletForge.Text.Basic

/-!
# CmdletForge.Proofs.Source.Names

The names in a line of source, as they are read from its text.

1. Outside of string literals a line has *chains*: runs of dots and of characters of names.  A
   chain that begins with a variable and a dot mentions a member of the variable.
2. A text *reads* as members of a variable when it mentions these and leaves no literal or chain
   open behind it.  Texts do so one behind the other (`Reads.append`).
3. Code stands *apart* when its text reads as the members of its pieces, so a line is looked at in
   small parts.
-/

namespace CmdletForge.Source

/-! ## Names -/

/-- The characters of names: letters, digits and the underscore, and whatever is not in ASCII. -/
def isNameChar (c : Char) : Bool := c.isAlphanum || c == '_' || 128 ≤ c.toNat

/-- An identifier.  One word of the language counts: the one that stands for the object itself. -/
def IsIdentifier (name : String) : Prop :=
  name ≠ "" ∧ name ≠ "this" ∧ ∀ c ∈ name.toList, isNameChar c = true

/-- Identifiers with dots between them. -/
def IsDotted (name : String) : Prop := ∀ part ∈ Text.split '.' name, IsIdentifier part

/-- What stands in front of the first dot. -/
def firstName (name : String) : String := String.ofList (name.toList.takeWhile (· ≠ '.'))

-- the characters of the name are looked at, and not all that there are
instance : Decidable (IsIdentifier name) :=
  @instDecidableAnd _ _ inferInstance
    (@instDecidableAnd _ _ inferInstance (List.decidableBAll _ _))

instance : Decidable (IsDotted name) := List.decidableBAll _ _

/-- The dot ends a name. -/
theorem ne_dot_of_isNameChar {c : Char} (h : isNameChar c = true) : c ≠ '.' := by
  rintro rfl
  contradiction

/-! ## Chains -/

/-- Where reading stands in a line. -/
inductive Mode where
  | between
  /-- In a chain; what is read of it, the last character first. -/
  | chain (read : List Char)
  | literal
  /-- Behind a backslash in a literal. -/
  | escape
  deriving DecidableEq, Repr

/-- Whether a character goes on a chain. -/
def isChainChar (c : Char) : Bool := isNameChar c || c == '.'

/-- What a character does that is in no literal and goes on no chain. -/
def Mode.besides (c : Char) : Mode := if c = '"' then .literal else .between

/-- Reads a character: the mode behind it, and the chain that it ends. -/
def Mode.next : Mode → Char → Mode × List (List Char)
  | .between, c => (if isChainChar c then .chain [c] else besides c, [])
  | .chain read, c =>
    if isChainChar c then (.chain (c :: read), []) else (besides c, [read.reverse])
  | .literal, c => (if c = '"' then .between else if c = '\\' then .escape else .literal, [])
  | .escape, _ => (.literal, [])

/-- Reads characters: the mode behind them, and the chains that end in them. -/
def scan : Mode → List Char → Mode × List (List Char)
  | m, [] => (m, [])
  | m, c :: cs => ((scan (m.next c).1 cs).1, (m.next c).2 ++ (scan (m.next c).1 cs).2)

/-- The chain that is left open at the end of a line. -/
def Mode.open? : Mode → List (List Char)
  | .chain read => [read.reverse]
  | _ => []

/-- The member of a variable that a chain begins with. -/
def memberOf? (owner : String) (chain : List Char) : Option String :=
  if chain.takeWhile (· ≠ '.') = owner.toList then
    match chain.dropWhile (· ≠ '.') with
    | _ :: rest => some (String.ofList (rest.takeWhile (· ≠ '.')))
    | [] => none
  else none

/-- The members of a variable that a line mentions outside of its literals. -/
def mentions (owner line : String) : List String :=
  ((scan .between line.toList).2 ++ (scan .between line.toList).1.open?).filterMap
    (memberOf? owner)

/-- A text is scanned in two parts, the second in the mode that the first has left. -/
theorem scan_append (m : Mode) (a b : List Char) :
    scan m (a ++ b) =
      ((scan (scan m a).1 b).1, (scan m a).2 ++ (scan (scan m a).1 b).2) := by
  induction a generalizing m with
  | nil => rfl
  | cons c cs ih =>
    simp only [List.cons_append, scan, ih, List.append_assoc]

/-- Characters of a chain go on it. -/
theorem scan_chain {cs : List Char} (h : ∀ c ∈ cs, isChainChar c = true) (read : List Char) :
    scan (.chain read) cs = (.chain (cs.reverse ++ read), []) := by
  induction cs generalizing read with
  | nil => rfl
  | cons c cs ih =>
    rw [List.forall_mem_cons] at h
    rw [scan, Mode.next, if_pos h.1, ih h.2, List.reverse_cons, List.append_assoc]
    rfl

/-- A chain begins with its first character... -/
theorem scan_between_chain {cs : List Char} (hne : cs ≠ []) (h : ∀ c ∈ cs, isChainChar c = true) :
    scan .between cs = (.chain cs.reverse, []) := by
  obtain ⟨c, cs, rfl⟩ := List.exists_cons_of_ne_nil hne
  rw [List.forall_mem_cons] at h
  rw [scan, Mode.next, if_pos h.1, scan_chain h.2, List.reverse_cons]
  rfl

/-- ...and ends in front of a character that does not go on it. -/
theorem scan_chain_end (hc : isChainChar c = false) (read rest : List Char) :
    scan (.chain read) (c :: rest) =
      ((scan .between (c :: rest)).1, read.reverse :: (scan .between (c :: rest)).2) := by
  simp [scan, Mode.next, hc]

/-- Inside of a literal nothing is read. -/
theorem scan_literalBody (cs : List Char) : scan .literal (literalBody cs) = (.literal, []) := by
  have hchar (c : Char) : scan .literal (literalChar c) = (.literal, []) := by
    unfold literalChar
    cases hletter : escapeLetter? c with
    | some letter => rfl
    | none =>
      have hquote : c ≠ '"' := by rintro rfl; contradiction
      have hslash : c ≠ '\\' := by rintro rfl; contradiction
      simp [scan, Mode.next, hquote, hslash]
  induction cs with
  | nil => rfl
  | cons c cs ih =>
    rw [literalBody, List.flatMap_cons, scan_append, hchar, ← literalBody, ih]
    rfl

/-- Nothing in a literal is read as a name, and behind it the scan is between names again. -/
theorem scan_literal (v : String) : scan .between (literal v).toList = (.between, []) := by
  have hopen (rest : List Char) : scan .between ('"' :: rest) = scan .literal rest := rfl
  rw [literal, String.toList_ofList, List.cons_append, hopen, scan_append, scan_literalBody]
  rfl

/-! ## Texts that are read by themselves -/

/-- A text that mentions members of a variable and leaves nothing open behind it. -/
def Reads (owner text : String) (names : List String) : Prop :=
  (scan .between text.toList).1 = .between ∧
    (scan .between text.toList).2.filterMap (memberOf? owner) = names

-- modes and texts are compared
instance : Decidable (Reads owner text names) :=
  @instDecidableAnd _ _ inferInstance inferInstance

/-- An empty text has no names. -/
theorem reads_empty (owner : String) : Reads owner "" [] := ⟨rfl, rfl⟩

/-- Texts that end between names are read apart. -/
theorem Reads.append (ha : Reads owner a xs) (hb : Reads owner b ys) :
    Reads owner (a ++ b) (xs ++ ys) := by
  rw [Reads, String.toList_append, scan_append, ha.1, List.filterMap_append, ha.2, hb.2]
  exact ⟨hb.1, rfl⟩

/-- What such a text mentions. -/
theorem Reads.mentions_eq (h : Reads owner text names) : mentions owner text = names := by
  rw [mentions, h.1]
  exact (congrArg _ (List.append_nil _)).trans h.2

-- a literal is passed over, and so is what is behind the dots of another variable
example : mentions "this" "context.Key = Named(\"this.Name\", this.Key, request.this.Part);" =
    ["Key"] := by
  decide +kernel

/-! ## Code that stands apart -/

/-- Codes are printed one behind the other... -/
theorem Code.print_append (a b : Code) : (a ++ b : Code).print = a.print ++ b.print := by
  induction a with
  | nil => exact String.empty_append.symm
  | cons p a ih => rw [List.cons_append, print, print, ih, String.append_assoc]

/-- ...and mention the members of both. -/
@[simp] theorem Code.membersOf_append (owner : String) (a b : Code) :
    (a ++ b : Code).membersOf owner = a.membersOf owner ++ b.membersOf owner :=
  List.filterMap_append

/-- Code whose text reads as the members of its pieces. -/
def Apart (owner : String) (c : Code) : Prop := Reads owner c.print (c.membersOf owner)

instance : Decidable (Apart owner c) := inferInstanceAs (Decidable (Reads ..))

/-- Codes of which members are read as they are meant can be put one behind the other. -/
theorem Apart.append (ha : Apart owner a) (hb : Apart owner b) : Apart owner (a ++ b) := by
  rw [Apart, Code.print_append, Code.membersOf_append]
  exact Reads.append ha hb

/-- A literal mentions no member, whatever its text is. -/
theorem apart_literal (owner value : String) : Apart owner [.literal value] := by
  have hprint : Code.print [.literal value] = literal value := String.append_empty
  rw [Apart, hprint, Reads, scan_literal]
  exact ⟨rfl, rfl⟩

/-- Codes with a text between them stand apart when all of these do. -/
theorem apart_separated {separator : String} {codes : List Code}
    (hseparator : Apart owner [.text separator]) (h : ∀ c ∈ codes, Apart owner c) :
    Apart owner (Code.separated separator codes) := by
  induction codes with
  | nil => exact reads_empty owner
  | cons c codes ih =>
    rw [List.forall_mem_cons] at h
    cases codes with
    | nil => exact h.1
    | cons d codes => exact h.1.append (hseparator.append (ih h.2))

/-- A text that begins with a character which ends a chain. -/
def Breaks (t : String) : Prop := t.toList.head?.map isChainChar = some false

instance : Decidable (Breaks t) := inferInstanceAs (Decidable (_ = _))

/-- A chain and a text that breaks it off. -/
theorem apart_of_chain {c : Code} (chain : List Char) (t : String)
    (hprint : c.print.toList = chain ++ t.toList) (hne : chain ≠ [])
    (hchain : ∀ x ∈ chain, isChainChar x = true) (hbreaks : Breaks t) (ht : Apart owner [.text t])
    (hmembers : c.membersOf owner = (memberOf? owner chain).toList) : Apart owner c := by
  have htext : Code.print [.text t] = t := String.append_empty
  rw [Apart, htext, Reads] at ht
  obtain ⟨x, cs, hcs⟩ : ∃ x cs, t.toList = x :: cs := by
    cases hcs : t.toList with
    | nil => simp [Breaks, hcs] at hbreaks
    | cons x cs => exact ⟨x, cs, rfl⟩
  have hx : isChainChar x = false := by simpa [Breaks, hcs] using hbreaks
  have hscan : scan .between (chain ++ t.toList) =
      ((scan .between t.toList).1, chain :: (scan .between t.toList).2) := by
    rw [scan_append, scan_between_chain hne hchain, hcs, scan_chain_end hx, List.reverse_reverse,
      List.nil_append]
  rw [Apart, Reads, hprint, hscan, hmembers, ht.1]
  refine ⟨rfl, ?_⟩
  have hrest : (scan .between t.toList).2.filterMap (memberOf? owner) = [] := ht.2
  rw [List.filterMap_cons]
  cases memberOf? owner chain <;> simp only [hrest, Option.toList]

/-! ## Members and types -/

theorem takeWhile_append_dot {cs : List Char} (h : ∀ c ∈ cs, isNameChar c = true)
    (rest : List Char) : (cs ++ '.' :: rest).takeWhile (· ≠ '.') = cs := by
  rw [List.takeWhile_append_of_pos fun c hc => by simpa using ne_dot_of_isNameChar (h c hc)]
  simp

theorem dropWhile_append_dot {cs : List Char} (h : ∀ c ∈ cs, isNameChar c = true)
    (rest : List Char) : (cs ++ '.' :: rest).dropWhile (· ≠ '.') = '.' :: rest := by
  rw [List.dropWhile_append_of_pos fun c hc => by simpa using ne_dot_of_isNameChar (h c hc)]
  simp

theorem takeWhile_eq_self {cs : List Char} (h : ∀ c ∈ cs, isNameChar c = true) :
    cs.takeWhile (· ≠ '.') = cs :=
  List.takeWhile_eq_self_iff.mpr fun c hc => by simpa using ne_dot_of_isNameChar (h c hc)

section
variable {o name typeName t : String}

/-- A dotted name is read as its variable and its member. -/
theorem memberOf?_member (ho : ∀ c ∈ o.toList, isNameChar c = true) (hn : IsIdentifier name)
    (owner : String) :
    memberOf? owner (o.toList ++ '.' :: name.toList) = if o = owner then some name else none := by
  rw [memberOf?, takeWhile_append_dot ho, dropWhile_append_dot ho]
  by_cases h : o = owner
  · rw [if_pos (congrArg _ h), if_pos h]
    exact congrArg some ((congrArg _ (takeWhile_eq_self hn.2.2)).trans String.ofList_toList)
  · rw [if_neg fun heq => h (String.toList_inj.mp heq), if_neg h]

/-- A member of a variable, and a text that breaks off. -/
theorem apart_member (ho : ∀ c ∈ o.toList, isNameChar c = true)
    (hn : IsIdentifier name) (hbreaks : Breaks t) (ht : Apart owner [.text t]) :
    Apart owner [.member o name, .text t] := by
  refine apart_of_chain (o.toList ++ '.' :: name.toList) t ?_ (by simp) ?_ hbreaks ht ?_
  · simp [Code.print, Piece.print, String.toList_append]
  · intro c hc
    rw [List.mem_append, List.mem_cons] at hc
    rcases hc with hc | rfl | hc
    · simp [isChainChar, ho c hc]
    · rfl
    · simp [isChainChar, hn.2.2 c hc]
  · rw [memberOf?_member ho hn]
    by_cases h : o = owner <;> simp [Code.membersOf, h]

/-! ## Dotted names -/

/-- The first piece of a split goes up to the first separator. -/
theorem splitFrom_head? (sep : Char) (acc cs : List Char) :
    (Text.splitFrom sep acc cs).head? = some (acc.reverse ++ cs.takeWhile (· ≠ sep)) := by
  induction cs generalizing acc with
  | nil => simp [Text.splitFrom]
  | cons c cs ih =>
    rw [Text.splitFrom]
    by_cases h : c = sep
    · simp [h]
    · rw [if_neg h, ih]
      simp [h]

/-- A character that is no separator stands in one of the pieces. -/
theorem mem_of_mem_splitFrom (sep : Char) (acc cs : List Char) (hc : c ∈ acc ∨ c ∈ cs) :
    c = sep ∨ ∃ part ∈ Text.splitFrom sep acc cs, c ∈ part := by
  induction cs generalizing acc with
  | nil => exact .inr ⟨acc.reverse, by simp [Text.splitFrom], by simpa using hc⟩
  | cons d cs ih =>
    rw [Text.splitFrom]
    by_cases h : d = sep
    · rw [if_pos h]
      rcases hc with hc | hc
      · exact .inr ⟨acc.reverse, by simp, by simpa using hc⟩
      · rcases List.mem_cons.mp hc with rfl | hc
        · exact .inl h
        · rcases ih [] (.inr hc) with hsep | ⟨part, hpart, hmem⟩
          · exact .inl hsep
          · exact .inr ⟨part, List.mem_cons_of_mem _ hpart, hmem⟩
    · rw [if_neg h]
      refine ih (d :: acc) ?_
      simpa [or_assoc, or_left_comm] using hc

/-- A dotted name is a chain. -/
theorem IsDotted.isChainChar (h : IsDotted typeName) :
    ∀ c ∈ typeName.toList, isChainChar c = true := by
  intro c hc
  rcases mem_of_mem_splitFrom '.' [] typeName.toList (.inr hc) with rfl | ⟨part, hp, hc⟩
  · rfl
  · have hpart := h (String.ofList part) (List.mem_map.mpr ⟨part, hp, rfl⟩)
    rw [IsIdentifier, String.toList_ofList] at hpart
    simp [Source.isChainChar, hpart.2.2 c hc]

/-- It begins with an identifier. -/
theorem IsDotted.isIdentifier_firstName (h : IsDotted typeName) :
    IsIdentifier (firstName typeName) := by
  refine h _ (List.mem_map.mpr ⟨typeName.toList.takeWhile (· ≠ '.'), ?_, rfl⟩)
  exact List.mem_of_head? (splitFrom_head? '.' [] typeName.toList)

/-- A dotted name is not empty. -/
theorem IsDotted.ne_nil (h : IsDotted typeName) : typeName.toList ≠ [] := by
  intro hnil
  have hfirst := h.isIdentifier_firstName.1
  rw [firstName, hnil] at hfirst
  contradiction

/-- A dotted name begins with no other variable than its first name. -/
theorem memberOf?_eq_none {rest : List Char} (hrest : rest = [] ∨ ∃ cs, rest = '.' :: cs)
    (h : firstName typeName ≠ owner) : memberOf? owner (typeName.toList ++ rest) = none := by
  have hfirst : (typeName.toList ++ rest).takeWhile (· ≠ '.') =
      typeName.toList.takeWhile (· ≠ '.') := by
    have hnil : rest.takeWhile (· ≠ '.') = [] := by rcases hrest with rfl | ⟨cs, rfl⟩ <;> rfl
    rw [List.takeWhile_append, hnil, List.append_nil]
    split
    · next hlength => exact ((List.takeWhile_prefix _).eq_of_length hlength).symm
    · rfl
  rw [memberOf?, hfirst, if_neg]
  intro heq
  exact h (by rw [firstName, heq, String.ofList_toList])

/-- A type and a text that breaks off. -/
theorem apart_type (hT : IsDotted typeName) (hfirst : firstName typeName ≠ owner)
    (hbreaks : Breaks t) (ht : Apart owner [.text t]) :
    Apart owner [.text typeName, .text t] := by
  refine apart_of_chain typeName.toList t ?_ hT.ne_nil hT.isChainChar hbreaks ht ?_
  · simp [Code.print, Piece.print, String.toList_append]
  · have hnone := memberOf?_eq_none (.inl rfl) hfirst
    rw [List.append_nil] at hnone
    rw [hnone]
    rfl

end

end CmdletForge.Source
