import CmdletForge.Proofs.Display.Capturing
import CmdletForge.Proofs.Xml.Elements

/-!
# CmdletForge.Proofs.Display.CaptureSteps

What one piece of a document does to what has been read of it (`Capture.stepCase_of_step`).

It opens or closes a type name, opens or ends a view, adds a name or leaves everything as it is.
What a piece does to the views, to the names, and to whether a type name is open, is read off from
these cases.
-/

namespace CmdletForge.Display.CustomDocument

open Xml (Event Piece)

namespace Capture

variable {text : List Char} {k k' : Capture} {p : Piece}

/-- What a piece does. -/
inductive StepCase (text : List Char) (k : Capture) (p : Piece) : Capture → Prop
  | opensType (h : p.event.Opens typeElement) : StepCase text k p { k with inTypeName := true }
  | closesType (h : p.event.Closes typeElement) : StepCase text k p { k with inTypeName := false }
  /-- A start tag of a view; it counts when no view is open. -/
  | opensView (h : p.event.Opens viewElement) :
      StepCase text k p { k with viewStart := k.viewStart <|> some p.start }
  /-- An end tag where no view is open. -/
  | endsView (h : p.event.Closes viewElement) (hclosed : k.viewStart = none) : StepCase text k p k
  /-- The end tag of the open view, whichever start tag it belongs to. -/
  | capturesView {start : Nat} {view : List Char} (h : p.event.Closes viewElement)
      (hopen : k.viewStart = some start) (hslice : Text.sliceBytes text start p.stop = some view) :
      StepCase text k p { k with viewStart := none, views := k.views ++ [String.ofList view] }
  /-- A run of text in a type name. -/
  | names {raw cs : List Char} (h : p.event = .text raw) (hin : k.inTypeName = true)
      (hdecoded : Xml.unescape raw = .ok cs) :
      StepCase text k p (k.addName (String.ofList (Text.trimChars cs)))
  | keeps (hopens : ∀ name ∈ [typeElement, viewElement], ¬ p.event.Opens name)
      (hcloses : ∀ name ∈ [typeElement, viewElement], ¬ p.event.Closes name)
      (htext : ∀ raw, p.event = .text raw → k.inTypeName = false) : StepCase text k p k

/-- Every step that succeeds is one of these. -/
theorem stepCase_of_step (h : step text k p = .ok k') : StepCase text k p k' := by
  obtain ⟨start, stop, event⟩ := p
  cases event with
  | start content =>
    obtain rfl := Except.ok.inj h
    simp only [startTag]
    split
    next htype => exact .opensType htype
    next htype =>
      split
      next hview => exact .opensView hview
      next hview =>
        exact .keeps (by simp [Event.Opens, htype, hview]) (by simp [Event.Closes]) (by simp)
  | finish name =>
    simp only [step, endTag] at h
    split at h
    next htype =>
      obtain rfl := Except.ok.inj h
      exact .closesType (congrArg Event.finish htype)
    next htype =>
      split at h
      next hview =>
        have hcloses : (Event.finish name).Closes viewElement := congrArg Event.finish hview
        cases hstart : k.viewStart with
        | none =>
          rw [hstart] at h
          obtain rfl := Except.ok.inj h
          exact .endsView hcloses hstart
        | some start =>
          rw [hstart] at h
          cases hslice : Text.sliceBytes text start stop with
          | none =>
            simp only [hslice] at h
            contradiction
          | some view =>
            simp only [hslice] at h
            obtain rfl := Except.ok.inj h
            exact .capturesView hcloses hstart hslice
      next hview =>
        obtain rfl := Except.ok.inj h
        exact .keeps (by simp [Event.Opens]) (by simp [Event.Closes, htype, hview]) (by simp)
  | text raw =>
    rw [step_text] at h
    split at h
    next hin =>
      cases hraw : Xml.unescape raw with
      | error e =>
        rw [hraw] at h
        contradiction
      | ok cs =>
        rw [hraw] at h
        obtain rfl := Except.ok.inj h
        exact .names rfl hin hraw
    next hin =>
      obtain rfl := Except.ok.inj h
      exact .keeps (by simp [Event.Opens]) (by simp [Event.Closes])
        fun _ _ => Bool.eq_false_iff.mpr hin
  | _ =>
    obtain rfl := Except.ok.inj h
    exact .keeps (by simp [Event.Opens]) (by simp [Event.Closes]) (by simp)

/-- A start tag of a type name begins no view. -/
theorem not_opensView_of_opensType (h : p.event.Opens typeElement) :
    ¬ p.event.Opens viewElement := fun hview =>
  viewElement_ne_typeElement (hview.eq h)

/-- An end tag of a type name ends no view. -/
theorem not_closesView_of_closesType (h : p.event.Closes typeElement) :
    ¬ p.event.Closes viewElement := fun hview =>
  viewElement_ne_typeElement (Event.finish.inj (hview.symm.trans h))

end Capture

end CmdletForge.Display.CustomDocument
