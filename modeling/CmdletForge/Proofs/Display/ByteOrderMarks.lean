import CmdletForge.Proofs.Display.ViewRanges
import CmdletForge.Proofs.Xml.Faults

/-!
# CmdletForge.Proofs.Display.ByteOrderMarks

Documents with a byte order mark in front.

1. The mark does not count in the offsets of the pieces, but it does in the text from which the
   views are taken.  So the views are taken from the ranges that they have without the mark, and
   stand there three bytes early (`cutAt_marked`, `capture_marked_of_ok`).
2. A view begins with `<View`, so it is never its slice three bytes early
   (`sliceBytes_marked_ne`).
3. `markLaw` collects what follows: the mark changes every view, and when a slice begins inside of
   a character, there is no document any more.
-/

namespace CmdletForge.Display.CustomDocument

open Xml (Span Spans)

/-! ## Texts with a mark -/

/-- A text with a byte order mark in front. -/
def marked (t : String) : String := "\uFEFF" ++ t

theorem toList_marked (t : String) : (marked t).toList = '\uFEFF' :: t.toList := by
  rw [marked, String.toList_append]
  rfl

/-- The mark does not count in the offsets of the pieces. -/
theorem pieces_marked {t : String} (hmark : Xml.dropMark t.toList = t.toList) :
    Xml.pieces (marked t).toList = Xml.pieces t.toList := by
  rw [toList_marked, Xml.pieces, Xml.pieces, hmark]
  rfl

/-- What counts of the bytes of a text with a mark stands three bytes later. -/
theorem cutAt_marked (t : String) (start stop : Nat) :
    cutAt (marked t).toList (start + 3, stop + 3) = cutAt t.toList (start, stop) := by
  have hdrop : Text.dropBytes? (start + 3) ('\uFEFF' :: t.toList) =
      Text.dropBytes? start t.toList := by
    rw [Text.dropBytes?]
    rfl
  simp only [cutAt, toList_marked, Text.sliceBytes, hdrop, Nat.add_le_add_iff_right,
    Nat.add_sub_add_right]

/-- **A view is not its slice three bytes early.** -/
theorem sliceBytes_marked_ne {cs rest : List Char} {start stop : Nat}
    (h : Text.sliceBytes cs start stop = some ("<View".toList ++ rest)) :
    Text.sliceBytes ('\uFEFF' :: cs) start stop ≠ some ("<View".toList ++ rest) := by
  intro hearly
  obtain ⟨front, back, hcs, hstart, -⟩ := Text.sliceBytes_eq_some_iff.mp h
  obtain ⟨front', back', hcs', hstart', -⟩ := Text.sliceBytes_eq_some_iff.mp hearly
  cases front' with
  | nil => exact absurd (List.cons.inj hcs').1 (by decide)
  | cons c front' =>
    obtain ⟨rfl, hrest⟩ := List.cons.inj hcs'
    have hcs' : cs = front' ++ ("<View".toList ++ rest) ++ back' := hrest
    -- the same offset stands in front of `<View` and inside of it
    have hdrop : Text.dropBytes? start cs = some ("<View".toList ++ rest ++ back) :=
      Text.dropBytes?_eq_some_iff.mpr ⟨front, by rw [hcs, List.append_assoc], hstart⟩
    have hdrop' : Text.dropBytes? start cs = some ("ew".toList ++ rest ++ back') := by
      refine Text.dropBytes?_eq_some_iff.mpr ⟨front' ++ "<Vi".toList, ?_, ?_⟩
      · rw [hcs']
        simp
      · rw [Text.width_append, ← hstart', Text.width_cons, Nat.add_comm]
        rfl
    have hsame := Option.some.inj (hdrop.symm.trans hdrop')
    exact absurd (List.cons.inj hsame).1 (by decide)

/-- A view is not the slice of its span in the text with the mark. -/
theorem ne_of_isSlice_marked {t : String} {s : Span} {view view' : String}
    (h : IsWritten t.toList s view) (h' : IsSlice (marked t).toList s view') : view ≠ view' := by
  rintro rfl
  obtain ⟨content, hname, rest, hview⟩ := h.begins
  have hprefix : Xml.tagName content <+: content := List.takeWhile_prefix _
  rw [hname] at hprefix
  obtain ⟨tail, rfl⟩ := hprefix
  have hbegins : view.toList = "<View".toList ++ (tail ++ ['>'] ++ rest) := by
    rw [← hview]
    simp [viewElement]
  have hslice := h.slice_eq
  rw [IsSlice, hbegins] at hslice h'
  rw [toList_marked] at h'
  exact sliceBytes_marked_ne hslice h'

/-! ## Parsing -/

/-- What comes of a text that was read to its end, or to a fault. -/
def ended (fault : Option Xml.Fault) (k : Capture) : Except Trouble Capture :=
  match fault with
  | some f => .error (.markup f)
  | none => if k.viewStart.isSome then .error .openView else .ok k

theorem capture_eq (text : List Char) :
    capture text = Capture.blank.read text (Xml.pieces text).1 >>= ended (Xml.pieces text).2 := by
  unfold capture
  rcases Xml.pieces text with ⟨ps, fault⟩
  change (Capture.blank.read text ps >>= _) = _
  cases Capture.blank.read text ps with
  | error e => rfl
  | ok k => cases fault <;> rfl

/-- How a text ends does not depend on its views. -/
theorem ended_withViews (fault : Option Xml.Fault) (k : Capture) (views : List String) :
    ended fault (k.withViews views) = (ended fault k).map fun k => k.withViews views := by
  cases fault with
  | some f => rfl
  | none =>
    show (if k.viewStart.isSome then _ else _) = _
    rw [ended]
    split <;> rfl

/-- No view is split in a text without a mark. -/
theorem read_ne_splitCharacter {t : String} (hmark : Xml.dropMark t.toList = t.toList) :
    Capture.blank.read t.toList (Xml.pieces t.toList).1 ≠ .error .splitCharacter := by
  obtain ⟨front, hfront, hcovers⟩ := Xml.exists_covers_pieces t.toList
  rw [hmark] at hfront
  exact (Capture.marks_of_eq_none rfl []).read_ne_splitCharacter hcovers hfront

section
variable {t : String} {k : Capture} {e : Trouble}

/-- An error in the pieces is the error of the capture. -/
theorem capture_of_error
    (h : Capture.blank.read t.toList (Xml.pieces t.toList).1 = .error e) :
    capture t.toList = .error e := by
  rw [capture_eq, h]
  rfl

/-- After the pieces only their end can fail the capture. -/
theorem capture_of_ok (h : Capture.blank.read t.toList (Xml.pieces t.toList).1 = .ok k) :
    capture t.toList = ended (Xml.pieces t.toList).2 k := by
  rw [capture_eq, h]
  rfl

variable (hmark : Xml.dropMark t.toList = t.toList)
include hmark

/-- A marked text that could not be captured without the mark cannot be captured with it either. -/
theorem capture_marked_of_error
    (h : Capture.blank.read t.toList (Xml.pieces t.toList).1 = .error e) :
    capture (marked t).toList = .error e ∨ capture (marked t).toList = .error .splitCharacter := by
  have he : e ≠ .splitCharacter := fun he => read_ne_splitCharacter hmark (he ▸ h)
  rw [capture_eq, pieces_marked hmark]
  rcases Capture.read_error h he (marked t).toList [] with hread | hread
  · exact .inl (congrArg (· >>= ended _) hread)
  · exact .inr (congrArg (· >>= ended _) hread)

/-- **What a text with a mark captures**: the views are taken from the same ranges. -/
theorem capture_marked_of_ok (h : Capture.blank.read t.toList (Xml.pieces t.toList).1 = .ok k) :
    capture (marked t).toList =
      ((viewRanges none (Xml.pieces t.toList).1).mapM (cutAt (marked t).toList)) >>= fun views =>
        (ended (Xml.pieces t.toList).2 k).map fun k => k.withViews views := by
  have hread : Capture.blank.read (marked t).toList (Xml.pieces t.toList).1 =
      ((viewRanges none (Xml.pieces t.toList).1).mapM (cutAt (marked t).toList)).map fun more =>
        k.withViews more := Capture.read_other h (marked t).toList []
  rw [capture_eq, pieces_marked hmark, hread]
  cases (viewRanges none (Xml.pieces t.toList).1).mapM (cutAt (marked t).toList) with
  | error e => rfl
  | ok views => exact ended_withViews _ k views

end

/-! ## The law -/

/-- What a byte order mark in front of a text changes. -/
structure MarkLaw (path : Path) (t : String) : Prop where
  /-- Without the mark, every view begins and ends between characters. -/
  whole : parse path t ≠ .error .splitCharacter
  /-- A text that is no document is none with the mark: it has the same trouble, unless a view is
  split before. -/
  failed : ∀ e, parse path t = .error e →
    parse path (marked t) = .error e ∨ parse path (marked t) = .error .splitCharacter
  /-- With the mark, a document has the same path and the same types, and its views are taken from
  the same ranges of bytes; there is no document when one of them splits a character. -/
  parsed : ∀ d, parse path t = .ok d → ∃ spans,
    Spans viewElement [] (Xml.pieces t.toList).1 spans ∧
      (spans.map rangeOf).mapM (cutAt t.toList) = .ok d.views ∧
      parse path (marked t) = ((spans.map rangeOf).mapM (cutAt (marked t).toList)).map fun views =>
        ⟨path, d.typeNames, views⟩
  /-- In the text with the mark, such a range stands three bytes early. -/
  early : ∀ start stop,
    cutAt (marked t).toList (start + 3, stop + 3) = cutAt t.toList (start, stop)
  /-- So no view is what it was. -/
  differ : ∀ d d', parse path t = .ok d → parse path (marked t) = .ok d' →
    List.Forall₂ (· ≠ ·) d.views d'.views
  /-- The mark changes nothing in documents without views, and only in those. -/
  transparent : ∀ d, parse path t = .ok d → (parse path (marked t) = .ok d ↔ d.views = [])

section
variable {path : Path} {t : String} {d d' : CustomDocument}

/-- A document fails to be read exactly when its text cannot be captured. -/
theorem parse_eq_error_iff : parse path t = .error e ↔ capture t.toList = .error e := by
  unfold parse
  cases capture t.toList <;> simp [Except.map]

variable (hmark : Xml.dropMark t.toList = t.toList)
include hmark

/-- A text without a mark is never cut inside a character. -/
theorem parse_ne_splitCharacter (path : Path) : parse path t ≠ .error .splitCharacter := by
  rw [Ne, parse_eq_error_iff, capture_eq]
  cases hread : Capture.blank.read t.toList (Xml.pieces t.toList).1 with
  | error e => exact fun he => read_ne_splitCharacter hmark (hread.trans he)
  | ok k =>
    show ¬ ended (Xml.pieces t.toList).2 k = _
    unfold ended
    split
    · simp
    · split <;> simp

/-- The mark repairs no document. -/
theorem parse_marked_of_error (h : parse path t = .error e) :
    parse path (marked t) = .error e ∨ parse path (marked t) = .error .splitCharacter := by
  rw [parse_eq_error_iff] at h ⊢
  rw [parse_eq_error_iff]
  cases hread : Capture.blank.read t.toList (Xml.pieces t.toList).1 with
  | error e' =>
    obtain rfl := Except.error.inj ((capture_of_error hread).symm.trans h)
    exact capture_marked_of_error hmark hread
  | ok k =>
    rw [capture_of_ok hread] at h
    rw [capture_marked_of_ok hmark hread, h]
    cases hcut : (viewRanges none (Xml.pieces t.toList).1).mapM (cutAt (marked t).toList) with
    | error e' =>
      obtain ⟨_, range, _, -, -, hrange⟩ := mapM_eq_error_iff.mp hcut
      exact .inr (congrArg Except.error (eq_of_cutAt hrange))
    | ok views => exact .inl rfl

/-- **The views of a document** and where they are taken from, without a mark and with it. -/
theorem exists_spans_of_parse (h : parse path t = .ok d) : ∃ spans,
    Spans viewElement [] (Xml.pieces t.toList).1 spans ∧
      List.Forall₂ (IsWritten t.toList) spans d.views ∧
      parse path (marked t) = ((spans.map rangeOf).mapM (cutAt (marked t).toList)).map fun views =>
        ⟨path, d.typeNames, views⟩ := by
  obtain ⟨k, hcapture, rfl⟩ := parse_eq_ok_iff.mp h
  obtain ⟨hread, hfault, hend⟩ := capture_eq_ok_iff.mp hcapture
  obtain ⟨views, hviews, spans, hspans, hslices⟩ := exists_views hread hend []
  have hall : k.views = views := hviews.trans (List.nil_append views)
  have hcovers := Xml.covers_pieces hfault
  rw [hmark] at hcovers
  refine ⟨spans, hspans, ?_, ?_⟩
  · have hpairs := (List.forall₂_and_left spans views).mpr ⟨fun s hs => hs, hslices⟩
    show List.Forall₂ _ spans k.views
    rw [hall]
    exact hpairs.imp fun s view ⟨hs, hslice⟩ =>
      isWritten_of_isSlice (hspans.pieces_eq hs ▸ hcovers) (hspans.isTagged hs) hslice
  · rw [capture_of_ok hread] at hcapture
    rw [parse, capture_marked_of_ok hmark hread, hcapture, ← viewRanges_eq_map hspans]
    cases (viewRanges none (Xml.pieces t.toList).1).mapM (cutAt (marked t).toList) <;> rfl

/-- If both are read, every view differs from what it is without the mark. -/
theorem forall₂_ne_of_parse (h : parse path t = .ok d) (h' : parse path (marked t) = .ok d') :
    List.Forall₂ (· ≠ ·) d.views d'.views := by
  obtain ⟨spans, -, hwritten, hmarked⟩ := exists_spans_of_parse hmark h
  rw [h'] at hmarked
  cases hcut : (spans.map rangeOf).mapM (cutAt (marked t).toList) with
  | error e =>
    rw [hcut] at hmarked
    contradiction
  | ok views =>
    rw [hcut] at hmarked
    obtain rfl := Except.ok.inj hmarked
    exact forall₂_of_left hwritten (mapM_cutAt_rangeOf.mp hcut) ne_of_isSlice_marked

/-- **When the mark changes nothing.** -/
theorem parse_marked_eq_iff (h : parse path t = .ok d) :
    parse path (marked t) = .ok d ↔ d.views = [] := by
  constructor
  · intro h'
    cases hviews : d.views with
    | nil => rfl
    | cons view views =>
      have hne := forall₂_ne_of_parse hmark h h'
      rw [hviews] at hne
      cases hne with
      | cons hview _ => exact absurd rfl hview
  · intro hviews
    obtain ⟨spans, -, hwritten, hmarked⟩ := exists_spans_of_parse hmark h
    rw [hviews, List.forall₂_nil_right_iff] at hwritten
    obtain ⟨k, -, rfl⟩ := parse_eq_ok_iff.mp h
    rw [hmarked, hwritten, show k.views = [] from hviews]
    rfl

/-- **A byte order mark in front of a text** that has none. -/
theorem markLaw (path : Path) : MarkLaw path t where
  whole := parse_ne_splitCharacter hmark path
  failed := fun _ => parse_marked_of_error hmark
  parsed := by
    intro d h
    obtain ⟨spans, hspans, hwritten, hmarked⟩ := exists_spans_of_parse hmark h
    exact ⟨spans, hspans,
      mapM_cutAt_rangeOf.mpr (hwritten.imp fun _ _ hview => hview.slice_eq), hmarked⟩
  early := cutAt_marked t
  differ := fun _ _ => forall₂_ne_of_parse hmark
  transparent := fun _ => parse_marked_eq_iff hmark

end

/-- A document with a view of a type, behind a character that is no ASCII. -/
def accented : String := "é <View><TypeName>A.B</TypeName></View>"

theorem markLaw_accented : MarkLaw "B.ps1xml" accented := markLaw (by decide +kernel) "B.ps1xml"

/-- **The mark is not transparent**: a view is taken three bytes early, and there is none when that
splits a character. -/
theorem parse_marked :
    parse "B.ps1xml" "<View></View>" = .ok ⟨"B.ps1xml", [], ["<View></View>"]⟩ ∧
      parse "B.ps1xml" (marked "<View></View>") = .ok ⟨"B.ps1xml", [], ["\uFEFF<View></Vi"]⟩ ∧
      parse "B.ps1xml" (marked "a<View></View>") = .error .splitCharacter := by
  decide +kernel

end CmdletForge.Display.CustomDocument
