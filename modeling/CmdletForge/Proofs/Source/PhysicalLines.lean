import CmdletForge.Proofs.Source.Regular
import CmdletForge.Proofs.Source.Writing
import CmdletForge.Text.Basic

/-!
# CmdletForge.Proofs.Source.PhysicalLines

The lines of source code as its reader finds them.

1. A line ends at each of the five characters that end a line; a carriage return with a line feed
   behind it ends one line.  The lines of a text up to a line feed and of what follows are found
   apart (`physicalLines_append`), and steps write texts that end so (`endsLine_textAt`).
2. What has no such character stands in front of the first line of what follows
   (`physicalLines_front`).  So a line with slashes in front of it is a comment up to the first
   character in it that ends a line, and what stands behind that character has to bring slashes of
   its own (`forall_isComment_inFront_iff`).
-/

namespace CmdletForge.Source

/-! ## Lines -/

/-- Lines with something in front of the first one. -/
def inFront (front : List Char) : List (List Char) → List (List Char)
  | [] => [front]
  | line :: rest => (front ++ line) :: rest

/-- The lines of a text, without what ends them.  There is no empty last line. -/
def physicalLines : List Char → List (List Char)
  | [] => []
  | '\r' :: '\n' :: cs => [] :: physicalLines cs
  | c :: cs => if c ∈ newLines then [] :: physicalLines cs else inFront [c] (physicalLines cs)

/-- What is put in front of lines stands on a first line, even if there was none. -/
theorem inFront_ne_nil (front : List Char) (lines : List (List Char)) :
    inFront front lines ≠ [] := by
  cases lines <;> simp [inFront]

/-- Only the first line is touched, so more lines may follow... -/
theorem inFront_append {lines : List (List Char)} (h : lines ≠ []) (front : List Char)
    (more : List (List Char)) : inFront front (lines ++ more) = inFront front lines ++ more := by
  cases lines with
  | nil => contradiction
  | cons line rest => rfl

/-- ...and texts are put in front one after the other. -/
theorem inFront_inFront (a b : List Char) (lines : List (List Char)) :
    inFront a (inFront b lines) = inFront (a ++ b) lines := by
  cases lines <;> simp [inFront]

@[simp] theorem tail_inFront (front : List Char) (lines : List (List Char)) :
    (inFront front lines).tail = lines.tail := by
  cases lines <;> rfl

/-- A character that ends no line stands in front of what follows on its line... -/
theorem physicalLines_cons_of_not_mem (h : c ∉ newLines) (cs : List Char) :
    physicalLines (c :: cs) = inFront [c] (physicalLines cs) := by
  have hreturn : c ≠ '\r' := by
    rintro rfl
    exact h (by decide +kernel)
  rw [physicalLines.eq_3 c cs fun _ hc _ => hreturn hc, if_neg h]

/-- ...and one that ends a line leaves an empty one in front of the others, unless it is a carriage
return and a line feed follows. -/
theorem physicalLines_cons_of_mem (h : c ∈ newLines) {cs : List Char}
    (hpair : ∀ rest, c = '\r' → cs ≠ '\n' :: rest) :
    physicalLines (c :: cs) = [] :: physicalLines cs := by
  rw [physicalLines.eq_3 c cs hpair, if_pos h]

theorem physicalLines_lineFeed (cs : List Char) :
    physicalLines ('\n' :: cs) = [] :: physicalLines cs :=
  physicalLines_cons_of_mem (by decide +kernel) fun _ hc => by contradiction

/-- A text that is not empty has a line. -/
theorem physicalLines_ne_nil {cs : List Char} (h : cs ≠ []) : physicalLines cs ≠ [] := by
  unfold physicalLines
  split
  · contradiction
  · simp
  · split
    · simp
    · exact inFront_ne_nil _ _

/-- **A line feed ends a line**, and what follows it does not see what stands in front of it. -/
theorem physicalLines_append (a b : List Char) :
    physicalLines (a ++ '\n' :: b) = physicalLines (a ++ ['\n']) ++ physicalLines b := by
  induction a using physicalLines.induct with
  | case1 => rw [List.nil_append, List.nil_append, physicalLines_lineFeed]; rfl
  | case2 cs ih => simp only [List.cons_append, physicalLines, ih]
  | case3 c cs hpair hline ih =>
    -- What follows `c` is `cs`, unless this is empty; then a carriage return takes the line feed.
    cases cs with
    | nil =>
      by_cases hreturn : c = '\r'
      · subst hreturn
        rfl
      · have hother : ∀ (cs rest : List Char), c = '\r' → cs ≠ '\n' :: rest :=
          fun _ _ hc => absurd hc hreturn
        rw [List.singleton_append, List.singleton_append,
          physicalLines_cons_of_mem hline (hother _), physicalLines_cons_of_mem hline (hother _),
          physicalLines_lineFeed, physicalLines_lineFeed]
        rfl
    | cons d ds =>
      have hother : ∀ (after rest : List Char), c = '\r' → d :: ds ++ after ≠ '\n' :: rest := by
        rintro after rest hc hafter
        obtain ⟨rfl, -⟩ := List.cons.inj hafter
        exact hpair ds hc rfl
      show physicalLines (c :: (d :: ds ++ '\n' :: b)) =
        physicalLines (c :: (d :: ds ++ ['\n'])) ++ physicalLines b
      rw [physicalLines_cons_of_mem hline (hother _), physicalLines_cons_of_mem hline (hother _),
        ih]
      rfl
  | case4 c cs hpair hline ih =>
    have hne : physicalLines (cs ++ ['\n']) ≠ [] := physicalLines_ne_nil (by simp)
    rw [List.cons_append, List.cons_append, physicalLines_cons_of_not_mem hline,
      physicalLines_cons_of_not_mem hline, ih, inFront_append hne]

/-- What has nothing in it that ends a line stands in front of the first line of what follows. -/
theorem physicalLines_front {front : List Char} (h : ∀ c ∈ front, c ∉ newLines) (hne : front ≠ [])
    (cs : List Char) : physicalLines (front ++ cs) = inFront front (physicalLines cs) := by
  induction front with
  | nil => exact absurd rfl hne
  | cons c front ih =>
    rw [List.forall_mem_cons] at h
    rw [List.cons_append, physicalLines_cons_of_not_mem h.1]
    cases front with
    | nil => rfl
    | cons d front => rw [ih h.2 (by simp), inFront_inFront, List.singleton_append]

/-- The lines of a text are made of its characters. -/
theorem mem_of_mem_physicalLines (h : l ∈ physicalLines cs) (hx : x ∈ l) : x ∈ cs := by
  induction cs using physicalLines.induct generalizing l with
  | case1 => simp [physicalLines] at h
  | case2 cs ih =>
    obtain rfl | h := List.mem_cons.mp h
    · simp at hx
    · exact .tail _ (.tail _ (ih h hx))
  | case3 c cs hpair hline ih =>
    rw [physicalLines.eq_3 c cs fun rest hc hrest => hpair rest hc hrest, if_pos hline] at h
    obtain rfl | h := List.mem_cons.mp h
    · simp at hx
    · exact .tail _ (ih h hx)
  | case4 c cs hpair hline ih =>
    rw [physicalLines_cons_of_not_mem hline] at h
    cases hlines : physicalLines cs with
    | nil =>
      rw [hlines, inFront, List.mem_singleton] at h
      rw [h, List.mem_singleton] at hx
      exact hx ▸ List.mem_cons_self
    | cons line rest =>
      rw [hlines] at ih h
      obtain rfl | h := List.mem_cons.mp h
      · obtain rfl | hx := List.mem_cons.mp hx
        · exact List.mem_cons_self
        · exact .tail _ (ih List.mem_cons_self hx)
      · exact .tail _ (ih (.tail _ h) hx)

/-- **A character in a text that ends a line ends one**, so that another follows. -/
theorem tail_physicalLines_ne_nil {cs : List Char} (hmem : ∃ c ∈ cs, c ∈ newLines)
    (hlast : ∀ c, cs.getLast? = some c → c ∉ newLines) :
    (physicalLines (cs ++ ['\n'])).tail ≠ [] := by
  have hne (cs : List Char) : physicalLines (cs ++ ['\n']) ≠ [] := physicalLines_ne_nil (by simp)
  induction cs using physicalLines.induct with
  | case1 => simp at hmem
  | case2 cs ih => exact hne cs
  | case3 c cs hpair hline ih =>
    cases cs with
    | nil => exact absurd hline (hlast c rfl)
    | cons d ds =>
      have hother : ∀ rest, c = '\r' → d :: ds ++ ['\n'] ≠ '\n' :: rest := by
        rintro rest hc hafter
        obtain ⟨rfl, -⟩ := List.cons.inj hafter
        exact hpair ds hc rfl
      rw [List.cons_append, physicalLines_cons_of_mem hline hother]
      exact hne (d :: ds)
  | case4 c cs hpair hline ih =>
    have hrest : ∃ x ∈ cs, x ∈ newLines := by simpa [hline] using hmem
    have hlast' : ∀ x, cs.getLast? = some x → x ∉ newLines := fun x hx =>
      hlast x (by rw [List.getLast?_cons, hx]; rfl)
    rw [List.cons_append, physicalLines_cons_of_not_mem hline, tail_inFront]
    exact ih hrest hlast'

/-! ## Steps -/

/-- A text that is empty, or ends with a line feed. -/
def EndsLine (s : String) : Prop := s = "" ∨ ∃ t, s = t ++ "\n"

/-- Behind the end of a line the lines of a text are those that it has alone. -/
theorem physicalLines_append_of_endsLine (h : EndsLine a) (b : String) :
    physicalLines (a ++ b).toList = physicalLines a.toList ++ physicalLines b.toList := by
  obtain rfl | ⟨t, rfl⟩ := h
  · simp [physicalLines]
  · simpa using physicalLines_append t.toList b.toList

/-- What was written ends its line once a line is put behind it... -/
theorem endsLine_append_lineAt (text : String) (level : Nat) (s : String) :
    EndsLine (text ++ lineAt level s) := by
  unfold lineAt
  split
  · exact .inr ⟨text, rfl⟩
  · exact .inr ⟨text ++ (indentation level ++ s), String.append_assoc.symm⟩

/-- ...and so does that line alone. -/
theorem endsLine_lineAt (level : Nat) (s : String) : EndsLine (lineAt level s) := by
  simpa using endsLine_append_lineAt "" level s

namespace Step

mutual

/-- Every step ends the line that it writes... -/
theorem endsLine_write (w : Writer) (h : EndsLine w.text) (s : Step) : EndsLine (s.write w).text :=
  match s with
  | .line _ | .openBlock | .closeBlock => endsLine_append_lineAt ..
  | .deeper | .back => h
  | .region _ _ => endsLine_append_lineAt ..

/-- ...so a text that ends its line still does behind several steps. -/
theorem endsLine_writeAll (w : Writer) (h : EndsLine w.text) (steps : List Step) :
    EndsLine (writeAll w steps).text :=
  match steps with
  | [] => h
  | s :: rest => endsLine_writeAll (s.write w) (endsLine_write w h s) rest

end

/-- **Steps write whole lines.** -/
theorem endsLine_textAt (level : Nat) (steps : List Step) : EndsLine (textAt level steps) :=
  endsLine_writeAll _ (.inl rfl) steps

/-- The lines of steps in a row. -/
theorem physicalLines_textAt_append (level : Nat) (a b : List Step) :
    physicalLines (textAt level (a ++ b)).toList =
      physicalLines (textAt level a).toList ++
        physicalLines (textAt (levelAt level a) b).toList := by
  rw [textAt_append, physicalLines_append_of_endsLine (endsLine_textAt level a)]

/-- The lines of even steps, each behind the last. -/
theorem physicalLines_textAt_flatMap {α : Type} {f : α → List Step} {xs : List α}
    (h : ∀ x ∈ xs, IsEven (f x)) (level : Nat) :
    physicalLines (textAt level (xs.flatMap f)).toList =
      xs.flatMap fun x => physicalLines (textAt level (f x)).toList := by
  induction xs with
  | nil => rfl
  | cons x xs ih =>
    rw [List.forall_mem_cons] at h
    rw [List.flatMap_cons, physicalLines_textAt_append, h.1, ih h.2, List.flatMap_cons]

/-- The lines of texts in a row, each on a line of its own as it is meant. -/
theorem physicalLines_textAt_map_plain {α : Type} (f : α → String) (xs : List α) (level : Nat) :
    physicalLines (textAt level (xs.map fun x => .plain (f x))).toList =
      xs.flatMap fun x => physicalLines (lineAt level (f x)).toList := by
  induction xs with
  | nil => rfl
  | cons x xs ih =>
    have hprint : Code.print [.text (f x)] = f x := String.append_empty
    rw [List.map_cons, plain, textAt_line_cons, hprint,
      physicalLines_append_of_endsLine (endsLine_lineAt level (f x)), ih, List.flatMap_cons]

end Step

/-! ## Comments -/

/-- A line that begins with the slashes of a documentation comment, behind its indentation. -/
def IsComment (line : List Char) : Prop := "///".toList <+: Text.trimStart line

instance : DecidablePred IsComment := fun _ => inferInstanceAs (Decidable (_ <+: _))

/-- What stands behind three slashes is a comment, at any depth. -/
theorem isComment_indented (level : Nat) (rest : List Char) :
    IsComment ((indentation level ++ "/// ").toList ++ rest) := by
  have hspaces : ∀ c ∈ List.replicate (4 * level) ' ', Text.isBlank c = true := by
    intro c hc
    rw [List.eq_of_mem_replicate hc]
    decide
  have hline : (indentation level ++ "/// ").toList ++ rest =
      List.replicate (4 * level) ' ' ++ ("/// ".toList ++ rest) := by
    simp [indentation]
  rw [IsComment, Text.trimStart, hline, List.dropWhile_append_of_pos hspaces]
  exact ⟨' ' :: rest, rfl⟩

/-- The first line with slashes in front of it is a comment; the others are as they are. -/
theorem forall_isComment_inFront_iff (level : Nat) (lines : List (List Char)) :
    (∀ l ∈ inFront (indentation level ++ "/// ").toList lines, IsComment l) ↔
      ∀ l ∈ lines.tail, IsComment l := by
  cases lines with
  | nil => simpa [inFront] using isComment_indented level []
  | cons line rest =>
    rw [inFront, List.forall_mem_cons, List.tail_cons]
    exact and_iff_right (isComment_indented level line)

/-- Slashes and their indentation stand on one line. -/
theorem newLine_not_mem_slashes (level : Nat) :
    ∀ c ∈ (indentation level ++ "/// ").toList, c ∉ newLines := by
  have hslash : '/' ∉ newLines := by decide +kernel
  have hspace : ' ' ∉ newLines := by decide +kernel
  have hslashes : ∀ c ∈ "/// ".toList, c ∉ newLines := by simp [hslash, hspace]
  intro c hc
  rw [String.toList_append, List.mem_append, indentation, String.toList_ofList] at hc
  obtain hc | hc := hc
  · rwa [List.eq_of_mem_replicate hc]
  · exact hslashes c hc

/-- The lines of a text behind slashes. -/
theorem physicalLines_slashes (level : Nat) (s : String) :
    physicalLines (lineAt level ("/// " ++ s)).toList =
      inFront (indentation level ++ "/// ").toList (physicalLines (s.toList ++ ['\n'])) := by
  have hne : (indentation level ++ "/// ").toList ≠ [] := by simp
  rw [← physicalLines_front (newLine_not_mem_slashes level) hne]
  simp [lineAt]

end CmdletForge.Source
