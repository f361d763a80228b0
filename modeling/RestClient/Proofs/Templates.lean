import RestClient.Proofs.Coding
import RestClient.Request
import Mathlib.Data.List.Forall2

/-!
# Templates of segments

Path templates whose segments are literal texts and whole placeholders, and the paths that they
render as.
-/

namespace RestClient

/-!
## Rendering
-/

namespace Template

variable {params : List (String × String)} {template : Template} {text rest rendered : List Char}
  {name value : List Char} {c : Char}

def Renders (params : List (String × String)) (template : Template) (text : List Char) : Prop :=
  template.unterminated = false ∧ exists front,
    Request.renderParts params template.placeholders = .ok front ∧ front ++ template.last = text

theorem renders_nil (params : List (String × String)) : (ofChars []).Renders params [] := by
  rw [ofChars]
  exact ⟨rfl, [], rfl, rfl⟩

theorem Renders.push (h : template.Renders params text) (c : Char) :
    (template.push c).Renders params (c :: text) := by
  rcases template with ⟨placeholders, last, unterminated⟩
  rcases h with ⟨hterminated, front, hfront, htext⟩
  cases placeholders with
  | nil =>
    cases hfront
    exact ⟨hterminated, [], rfl, congrArg (c :: ·) htext⟩
  | cons first placeholders =>
    rcases first with ⟨literal, name⟩
    refine ⟨hterminated, c :: front, ?_, congrArg (c :: ·) htext⟩
    show Request.renderParts params ((c :: literal, name) :: placeholders) = _
    dsimp only [Request.renderParts] at hfront ⊢
    cases hvalue : Request.renderValue params name with
    | error e =>
      rw [hvalue] at hfront
      cases hfront
    | ok value =>
      rw [hvalue] at hfront
      dsimp only at hfront ⊢
      cases hparts : Request.renderParts params placeholders with
      | error e =>
        rw [hparts] at hfront
        cases hfront
      | ok text =>
        rw [hparts] at hfront
        cases hfront
        rfl

theorem Renders.hold (h : template.Renders params text)
    (hvalue : Request.renderValue params name = .ok value) :
    (template.hold name).Renders params (value ++ text) := by
  rcases h with ⟨hterminated, front, hfront, htext⟩
  refine ⟨hterminated, value ++ front, ?_, ?_⟩
  · show Request.renderParts params (([], name) :: template.placeholders) = _
    dsimp only [Request.renderParts]
    rw [hvalue, hfront]
    rfl
  · rw [List.append_assoc, ← htext]
    rfl

theorem renders_cons (hc : c ≠ '\x7b') (h : (ofChars rest).Renders params rendered) :
    (ofChars (c :: rest)).Renders params (c :: rendered) := by
  rw [ofChars, if_neg (by simpa using hc)]
  exact h.push c

theorem renders_literal (htext : forall c, c ∈ text -> c ≠ '\x7b')
    (h : (ofChars rest).Renders params rendered) :
    (ofChars (text ++ rest)).Renders params (text ++ rendered) := by
  induction text with
  | nil => exact h
  | cons c text ih =>
    exact renders_cons (htext c List.mem_cons_self)
      (ih fun d hd => htext d (List.mem_cons_of_mem c hd))

theorem closing_name (hname : '\x7d' ∉ name) (rest : List Char) :
    closing (name ++ '\x7d' :: rest) = some (name, ofChars rest) := by
  induction name with
  | nil =>
    show closing ('\x7d' :: rest) = _
    rw [closing, if_pos (by simp)]
  | cons c name ih =>
    rw [List.mem_cons, not_or] at hname
    have hc : ¬ (c == '\x7d') = true := fun heq => hname.1 (beq_iff_eq.mp heq).symm
    rw [List.cons_append, closing, if_neg hc, ih hname.2]
    rfl

theorem renders_placeholder (hname : '\x7d' ∉ name)
    (hvalue : Request.renderValue params name = .ok value)
    (h : (ofChars rest).Renders params rendered) :
    (ofChars ('\x7b' :: (name ++ '\x7d' :: rest))).Renders params (value ++ rendered) := by
  rw [ofChars, if_pos (by simp), closing_name hname]
  exact h.hold hvalue

end Template

/-!
## Segments
-/

/-- A segment of a template. -/
inductive Segment where
  | literal (text : List Char)
  | placeholder (name : List Char)

namespace Segment

variable {params : List (String × String)} {segment : Segment} {segments : List Segment}
  {value rest rendered : List Char} {values : List (List Char)}

def text : Segment -> List Char
  | .literal text => text
  | .placeholder name => '\x7b' :: (name ++ ['\x7d'])

def template (segments : List Segment) : List Char :=
  List.intercalate ['/'] (segments.map text)

/-- The value makes a segment of its own. -/
def IsProper (value : List Char) : Prop := value ≠ [] ∧ value ≠ ['.'] ∧ value ≠ ['.', '.']

/-- The segment stands for this value: a literal text for itself, a placeholder for what it is
assigned. -/
inductive Fills (params : List (String × String)) : Segment -> List Char -> Prop where
  | literal {text : List Char} (hplain : forall c, c ∈ text -> Percent.isUnreserved c = true)
      (hproper : IsProper text) : Fills params (.literal text) text
  | placeholder {name : List Char} {value : String} (hname : '\x7d' ∉ name)
      (hvalue : Assoc.get? params (String.ofList name) = some value)
      (hproper : IsProper value.toList) : Fills params (.placeholder name) value.toList

theorem Fills.isProper (h : segment.Fills params value) : IsProper value := by
  cases h with
  | literal _ hproper => exact hproper
  | placeholder _ _ hproper => exact hproper

theorem renderValue_of_isProper {name : List Char} {value : String}
    (hvalue : Assoc.get? params (String.ofList name) = some value)
    (hproper : IsProper value.toList) :
    Request.renderValue params name =
      .ok (Percent.encode Percent.isUnreserved value.toList) := by
  rcases hproper with ⟨hempty, hdot, hdots⟩
  have hempty' : value ≠ "" := by
    rintro rfl
    exact hempty rfl
  have hdot' : ¬ (value = "." ∨ value = "..") := by
    rintro (rfl | rfl)
    · exact hdot rfl
    · exact hdots rfl
  unfold Request.renderValue
  dsimp only
  rw [hvalue]
  dsimp only
  rw [if_neg hempty', if_neg hdot']

theorem Fills.renders (h : segment.Fills params value)
    (hrest : (Template.ofChars rest).Renders params rendered) :
    (Template.ofChars (segment.text ++ rest)).Renders params
      (Percent.encode Percent.isUnreserved value ++ rendered) := by
  cases h with
  | literal hplain _ =>
    have hbrace : forall c, c ∈ value -> c ≠ '\x7b' := by
      rintro c hc rfl
      exact absurd (hplain _ hc) (by decide)
    rw [Percent.encode_eq_self hplain]
    exact Template.renders_literal hbrace hrest
  | placeholder hname hvalue hproper =>
    have hrenders := Template.renders_placeholder hname
      (renderValue_of_isProper hvalue hproper) hrest
    rw [text, List.cons_append, List.append_assoc]
    exact hrenders

theorem renders_template (h : List.Forall₂ (Fills params) segments values) :
    (Template.ofChars (template segments)).Renders params
      (List.intercalate ['/'] (values.map (Percent.encode Percent.isUnreserved))) := by
  unfold template
  induction h with
  | nil => exact Template.renders_nil params
  | @cons segment value segments values hfirst hrest ih =>
    cases hrest with
    | nil =>
      have hlast := hfirst.renders (Template.renders_nil params)
      rw [List.append_nil, List.append_nil] at hlast
      rw [List.map_singleton, List.map_singleton, List.intercalate_singleton,
        List.intercalate_singleton]
      exact hlast
    | cons hsecond hmore =>
      have hslash := Template.renders_cons (show '/' ≠ '\x7b' by decide) ih
      have hall := hfirst.renders hslash
      rw [List.map_cons, List.map_cons, List.map_cons, List.map_cons,
        List.intercalate_cons_cons, List.intercalate_cons_cons, List.append_assoc,
        List.append_assoc]
      exact hall

theorem isProper_of_mem (h : List.Forall₂ (Fills params) segments values) :
    forall value, value ∈ values -> IsProper value := by
  induction h with
  | nil => simp
  | cons hfirst _ ih => exact List.forall_mem_cons.mpr ⟨hfirst.isProper, ih⟩

theorem get?_eq_of_fills {others : List (String × String)} {name : List Char}
    (h : List.Forall₂ (Fills params) segments values)
    (hothers : List.Forall₂ (Fills others) segments values)
    (hname : .placeholder name ∈ segments) :
    Assoc.get? others (String.ofList name) = Assoc.get? params (String.ofList name) := by
  induction h with
  | nil => cases hname
  | @cons segment value segments values hfirst _ ih =>
    cases hothers with
    | cons hother hrest =>
      rcases List.mem_cons.mp hname with rfl | hlater
      · generalize hboth : value = shared at hother
        cases hfirst with
        | placeholder _ hvalue _ =>
          cases hother with
          | placeholder _ hvalue' _ =>
            rw [hvalue, hvalue', String.toList_inj.mp hboth]
      · exact ih hrest hlater

end Segment

theorem Request.renderPath_of_fills {request : Request} {segments : List Segment}
    {values : List (List Char)} (hpath : request.path = String.ofList (Segment.template segments))
    (h : List.Forall₂ (Segment.Fills request.pathParams) segments values) :
    request.renderPath =
      .ok (List.intercalate ['/'] (values.map (Percent.encode Percent.isUnreserved))) := by
  rcases Segment.renders_template h with ⟨hterminated, front, hfront, htext⟩
  unfold renderPath Template.parse
  rw [hpath, String.toList_ofList]
  dsimp only
  rw [hfront, hterminated]
  exact congrArg Except.ok htext

end RestClient
