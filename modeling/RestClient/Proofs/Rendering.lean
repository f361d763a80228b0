import RestClient.Proofs.Joining

/-!
# The grammar of templates

A template is written as literal texts with names in braces between them,

    literal {name} literal {name} ... literal

and may end with an opening brace that is never closed.  No literal text has an opening brace, and
neither a name nor the end has a closing one.  There is one way to read a text as such, and it
decides what becomes of the path: the literal texts with the encoded values between them, or the
error of what is wrong first.
-/

namespace RestClient

/-!
## Encoded values
-/

namespace Percent

def unreserved : List Char :=
  "ABCDEFGHIJKLMNOPQRSTUVWXYZabcdefghijklmnopqrstuvwxyz0123456789-_.~".toList

def upperHex : List Char := "0123456789ABCDEF".toList

def spell (b : UInt8) : List Char :=
  if Char.ofNat b.toNat ∈ unreserved then [Char.ofNat b.toNat]
  else ['%', upperHex.getD (b.toNat / 16) '0', upperHex.getD (b.toNat % 16) '0']

theorem hexDigit_eq_getD : forall n, n < 16 -> hexDigit n = upperHex.getD n '0' := by decide

theorem encodeByte_eq (b : UInt8) :
    encodeByte b = ['%', upperHex.getD (b.toNat / 16) '0', upperHex.getD (b.toNat % 16) '0'] := by
  have hbound : b.toNat < 256 := b.toNat_lt
  unfold encodeByte
  rw [hexDigit_eq_getD _ (by omega), hexDigit_eq_getD _ (by omega)]

theorem toNat_ofNat_of_lt : forall n, n < 256 -> (Char.ofNat n).toNat = n := by decide +kernel

theorem toNat_lt_of_mem_unreserved {c : Char} (h : c ∈ unreserved) : c.toNat < 128 := by
  have hall : unreserved.all (·.toNat < 128) = true := by decide
  exact of_decide_eq_true (List.all_eq_true.mp hall c h)

theorem toNat_lt_of_isUnreserved {c : Char} (h : isUnreserved c = true) : c.toNat < 128 := by
  apply Url.toNat_lt_of_isPlain
  unfold Url.isPlain isEncoded
  rw [h]
  rfl

theorem isUnreserved_iff_mem {c : Char} : isUnreserved c = true <-> c ∈ unreserved := by
  have hascii :
      forall n, n < 128 -> isUnreserved (Char.ofNat n) = true -> Char.ofNat n ∈ unreserved := by
    decide +kernel
  have hall : unreserved.all isUnreserved = true := by decide +kernel
  constructor
  · intro h
    have hmem := hascii c.toNat (toNat_lt_of_isUnreserved h)
    rw [Char.ofNat_toNat] at hmem
    exact hmem h
  · exact List.all_eq_true.mp hall c

theorem encodeChar_eq (c : Char) :
    encodeChar isUnreserved c = (String.utf8EncodeChar c).flatMap spell := by
  unfold encodeChar
  by_cases hc : isUnreserved c = true
  · have hascii := toNat_lt_of_isUnreserved hc
    have hbyte : (UInt8.ofNat c.toNat).toNat = c.toNat := Utf8.toNat_ofNat (by omega)
    rw [if_pos hc, Utf8.utf8EncodeChar_of_lt hascii, List.flatMap_singleton]
    unfold spell
    rw [hbyte, Char.ofNat_toNat, if_pos (isUnreserved_iff_mem.mp hc)]
  · have hspell : forall b, b ∈ String.utf8EncodeChar c -> encodeByte b = spell b := by
      intro b hb
      have hkept : Char.ofNat b.toNat ∉ unreserved := by
        rcases Utf8.mem_utf8EncodeChar hb with ⟨hascii, rfl⟩ | ⟨_, hb⟩
        · rw [Utf8.toNat_ofNat (by omega), Char.ofNat_toNat, ← isUnreserved_iff_mem]
          exact hc
        · intro hmem
          have hlt := toNat_lt_of_mem_unreserved hmem
          rw [toNat_ofNat_of_lt _ b.toNat_lt] at hlt
          exact Nat.not_lt_of_le hb hlt
      rw [encodeByte_eq, spell, if_neg hkept]
    rw [if_neg hc]
    exact List.flatMap_congr hspell

/-- Every byte of a value is written on its own. -/
theorem encode_eq_spell (text : List Char) :
    encode isUnreserved text = (Utf8.encode text).flatMap spell := by
  unfold encode Utf8.encode
  rw [List.flatMap_assoc]
  exact List.flatMap_congr fun c _ => encodeChar_eq c

end Percent

/-!
## Reading a template
-/

namespace Template

variable {literal name tail : List Char} {c : Char}

/-- A template as it is written: literal texts, each with the name of the placeholder behind it,
the last literal text, and what follows an opening brace that is never closed. -/
@[ext]
structure Splitting where
  placeholders : List (List Char × List Char)
  last : List Char
  tail : Option (List Char)
  literals_open : forall part, part ∈ placeholders -> '\x7b' ∉ part.1
  names_closed : forall part, part ∈ placeholders -> '\x7d' ∉ part.2
  last_open : '\x7b' ∉ last
  tail_closed : forall text, text ∈ tail -> '\x7d' ∉ text

namespace Splitting

def partText (part : List Char × List Char) : List Char :=
  part.1 ++ '\x7b' :: (part.2 ++ ['\x7d'])

def tailText : Option (List Char) -> List Char
  | none => []
  | some tail => '\x7b' :: tail

def text (s : Splitting) : List Char :=
  s.placeholders.flatMap partText ++ (s.last ++ tailText s.tail)

def cons (s : Splitting) (literal name : List Char) (hliteral : '\x7b' ∉ literal)
    (hname : '\x7d' ∉ name) : Splitting :=
  { placeholders := (literal, name) :: s.placeholders
    last := s.last
    tail := s.tail
    literals_open := List.forall_mem_cons.mpr ⟨hliteral, s.literals_open⟩
    names_closed := List.forall_mem_cons.mpr ⟨hname, s.names_closed⟩
    last_open := s.last_open
    tail_closed := s.tail_closed }

theorem text_cons (s : Splitting) (hliteral : '\x7b' ∉ literal) (hname : '\x7d' ∉ name) :
    (s.cons literal name hliteral hname).text =
      literal ++ '\x7b' :: (name ++ '\x7d' :: s.text) := by
  simp [text, cons, partText]

end Splitting

theorem ofChars_cons_of_ne (hc : c ≠ '\x7b') (rest : List Char) :
    ofChars (c :: rest) = (ofChars rest).push c := by
  rw [ofChars, if_neg (by simpa using hc)]

theorem closing_eq_none (h : '\x7d' ∉ tail) : closing tail = none := by
  induction tail with
  | nil => rw [closing]
  | cons c tail ih =>
    rw [List.mem_cons, not_or] at h
    have hc : ¬ (c == '\x7d') = true := fun heq => h.1 (beq_iff_eq.mp heq).symm
    rw [closing, if_neg hc, ih h.2]
    rfl

theorem ofChars_placeholder (hliteral : '\x7b' ∉ literal) (hname : '\x7d' ∉ name)
    (rest : List Char) :
    ofChars (literal ++ '\x7b' :: (name ++ '\x7d' :: rest)) =
      { ofChars rest with placeholders := (literal, name) :: (ofChars rest).placeholders } := by
  induction literal with
  | nil =>
    rw [List.nil_append, ofChars, if_pos (by simp), closing_name hname]
    rfl
  | cons c literal ih =>
    rw [List.mem_cons, not_or] at hliteral
    rw [List.cons_append, ofChars_cons_of_ne (Ne.symm hliteral.1), ih hliteral.2]
    rfl

theorem ofChars_last (hlast : '\x7b' ∉ literal) : ofChars literal = ⟨[], literal, false⟩ := by
  induction literal with
  | nil => rw [ofChars]
  | cons c literal ih =>
    rw [List.mem_cons, not_or] at hlast
    rw [ofChars_cons_of_ne (Ne.symm hlast.1), ih hlast.2]
    rfl

theorem ofChars_tail (hliteral : '\x7b' ∉ literal) (htail : '\x7d' ∉ tail) :
    ofChars (literal ++ '\x7b' :: tail) = ⟨[], literal, true⟩ := by
  induction literal with
  | nil =>
    rw [List.nil_append, ofChars, if_pos (by simp), closing_eq_none htail]
  | cons c literal ih =>
    rw [List.mem_cons, not_or] at hliteral
    rw [List.cons_append, ofChars_cons_of_ne (Ne.symm hliteral.1), ih hliteral.2]
    rfl

namespace Splitting

theorem ofChars_text (s : Splitting) :
    ofChars s.text = ⟨s.placeholders, s.last, s.tail.isSome⟩ := by
  rcases s with ⟨placeholders, last, tail, hliterals, hnames, hlast, htail⟩
  unfold text
  dsimp only
  induction placeholders with
  | nil =>
    rw [List.flatMap_nil, List.nil_append]
    cases tail with
    | none =>
      rw [tailText, List.append_nil, ofChars_last hlast]
      rfl
    | some tail =>
      rw [tailText, ofChars_tail hlast (htail tail rfl)]
      rfl
  | cons part placeholders ih =>
    rcases part with ⟨literal, name⟩
    rcases List.forall_mem_cons.mp hliterals with ⟨hliteral, hliterals⟩
    rcases List.forall_mem_cons.mp hnames with ⟨hname, hnames⟩
    have hread := ofChars_placeholder hliteral hname
      (placeholders.flatMap partText ++ (last ++ tailText tail))
    rw [ih hliterals hnames] at hread
    rw [← hread]
    simp [partText]

/-- There is one way at most to read a text as a template. -/
theorem eq_of_text_eq {s t : Splitting} (h : s.text = t.text) : s = t := by
  have hread := congrArg ofChars h
  rw [ofChars_text, ofChars_text] at hread
  injection hread with hplaceholders hlast htail
  have htails : tailText s.tail = tailText t.tail := by
    unfold text at h
    rw [hplaceholders, hlast] at h
    exact List.append_cancel_left (List.append_cancel_left h)
  refine Splitting.ext hplaceholders hlast ?_
  cases hs : s.tail with
  | none =>
    cases ht : t.tail with
    | none => rfl
    | some other =>
      rw [hs, ht] at htail
      cases htail
  | some tail =>
    cases ht : t.tail with
    | none =>
      rw [hs, ht] at htail
      cases htail
    | some other =>
      rw [hs, ht] at htails
      exact congrArg some (List.cons.inj htails).2

/-- Every text can be read as a template. -/
theorem exists_text_eq (text : List Char) : exists s : Splitting, s.text = text := by
  induction hlength : text.length using Nat.strong_induction_on generalizing text with
  | _ n ih =>
    by_cases hopen : '\x7b' ∈ text
    · rcases List.eq_append_cons_of_mem hopen with ⟨literal, rest, rfl, hliteral⟩
      by_cases hclose : '\x7d' ∈ rest
      · rcases List.eq_append_cons_of_mem hclose with ⟨name, after, rfl, hname⟩
        have hshorter : after.length < n := by
          simp only [List.length_append, List.length_cons] at hlength
          omega
        rcases ih after.length hshorter after rfl with ⟨s, rfl⟩
        exact ⟨s.cons literal name hliteral hname, s.text_cons hliteral hname⟩
      · exact ⟨⟨[], literal, some rest, by simp, by simp, hliteral, by simpa using hclose⟩, rfl⟩
    · exact ⟨⟨[], text, none, by simp, by simp, hopen, by simp⟩, List.append_nil text⟩

end Splitting
end Template

/-!
## Rendering
-/

namespace Request

variable {params : List (String × String)} {name text : List Char} {e : Error}
  {parts : List (List Char × List Char)}

/-- The first entry of the name gives it this value, which makes a segment of its own. -/
def Assigns (params : List (String × String)) (name : List Char) (value : String) : Prop :=
  Assoc.get? params (String.ofList name) = some value ∧ Segment.IsProper value.toList

/-- The placeholder cannot be rendered, and this is the reason. -/
inductive Offends (params : List (String × String)) (name : List Char) : Error -> Prop where
  | missing (hvalue : Assoc.get? params (String.ofList name) = none) :
      Offends params name (.invalidArgument (.missingParameter (String.ofList name)))
  | empty (hvalue : Assoc.get? params (String.ofList name) = some "") :
      Offends params name (.invalidArgument (.emptyParameter (String.ofList name)))
  | dots {value : String} (hvalue : Assoc.get? params (String.ofList name) = some value)
      (hdots : value = "." ∨ value = "..") :
      Offends params name (.invalidArgument (.dotSegment (String.ofList name) value))

theorem renderValue_spec (params : List (String × String)) (name : List Char) :
    (exists value, Assigns params name value ∧
        renderValue params name = .ok (Percent.encode Percent.isUnreserved value.toList)) ∨
      exists e, Offends params name e ∧ renderValue params name = .error e := by
  unfold renderValue
  dsimp only
  cases hvalue : Assoc.get? params (String.ofList name) with
  | none => exact Or.inr ⟨_, .missing hvalue, rfl⟩
  | some value =>
    dsimp only
    by_cases hempty : value = ""
    · subst hempty
      exact Or.inr ⟨_, .empty hvalue, if_pos rfl⟩
    · rw [if_neg hempty]
      by_cases hdots : value = "." ∨ value = ".."
      · exact Or.inr ⟨_, .dots hvalue hdots, if_pos hdots⟩
      · rw [if_neg hdots]
        refine Or.inl ⟨value, ⟨hvalue, ?_, ?_, ?_⟩, rfl⟩
        · exact fun hnil => hempty (String.toList_inj.mp hnil)
        · exact fun hdot => hdots (Or.inl (String.toList_inj.mp hdot))
        · exact fun hdot => hdots (Or.inr (String.toList_inj.mp hdot))

theorem renderValue_eq_ok_iff :
    renderValue params name = .ok text <-> exists value, Assigns params name value ∧
      text = Percent.encode Percent.isUnreserved value.toList := by
  constructor
  · intro h
    rcases renderValue_spec params name with ⟨value, hvalue, hrender⟩ | ⟨e, _, hrender⟩
    · rw [h] at hrender
      exact ⟨value, hvalue, Except.ok.inj hrender⟩
    · rw [h] at hrender
      cases hrender
  · rintro ⟨value, ⟨hvalue, hproper⟩, rfl⟩
    exact Segment.renderValue_of_isProper hvalue hproper

theorem renderValue_eq_error_iff :
    renderValue params name = .error e <-> Offends params name e := by
  constructor
  · intro h
    rcases renderValue_spec params name with ⟨value, _, hrender⟩ | ⟨other, hother, hrender⟩
    · rw [h] at hrender
      cases hrender
    · rw [h] at hrender
      cases hrender
      exact hother
  · intro h
    unfold renderValue
    dsimp only
    cases h with
    | missing hvalue => rw [hvalue]
    | empty hvalue =>
      rw [hvalue]
      exact if_pos rfl
    | @dots value hvalue hdots =>
      have hempty : value ≠ "" := by rcases hdots with rfl | rfl <;> decide
      rw [hvalue]
      dsimp only
      rw [if_neg hempty, if_pos hdots]

def fill (parts : List (List Char × List Char)) (values : List String) : List Char :=
  (List.zipWith
    (fun part value => part.1 ++ Percent.encode Percent.isUnreserved value.toList)
    parts values).flatten

abbrev AssignsAll (params : List (String × String)) :
    List (List Char × List Char) -> List String -> Prop :=
  List.Forall₂ fun part value => Assigns params part.2 value

theorem renderParts_eq_ok_iff :
    renderParts params parts = .ok text <->
      exists values, AssignsAll params parts values ∧ text = fill parts values := by
  induction parts generalizing text with
  | nil =>
    constructor
    · rintro ⟨⟩
      exact ⟨[], .nil, rfl⟩
    · rintro ⟨values, ⟨⟩, rfl⟩
      rfl
  | cons part parts ih =>
    rcases part with ⟨literal, name⟩
    constructor
    · intro h
      unfold renderParts at h
      cases hvalue : renderValue params name with
      | error e =>
        rw [hvalue] at h
        cases h
      | ok encoded =>
        cases hrest : renderParts params parts with
        | error e =>
          rw [hvalue, hrest] at h
          cases h
        | ok rest =>
          rw [hvalue, hrest] at h
          cases h
          rcases renderValue_eq_ok_iff.mp hvalue with ⟨value, hassigns, rfl⟩
          rcases ih.mp hrest with ⟨values, hall, rfl⟩
          exact ⟨value :: values, .cons hassigns hall, rfl⟩
    · rintro ⟨values, hall, rfl⟩
      cases hall with
      | @cons _ value _ values hassigns hall =>
        have hvalue := renderValue_eq_ok_iff.mpr ⟨value, hassigns, rfl⟩
        have hrest := ih.mpr ⟨values, hall, rfl⟩
        unfold renderParts
        rw [hvalue, hrest]
        rfl

/-- The first placeholder that cannot be rendered decides the error. -/
theorem renderParts_eq_error_iff :
    renderParts params parts = .error e <->
      exists before part after, parts = before ++ part :: after ∧
        (forall earlier, earlier ∈ before -> exists value, Assigns params earlier.2 value) ∧
        Offends params part.2 e := by
  induction parts with
  | nil =>
    constructor
    · rintro ⟨⟩
    · rintro ⟨before, part, after, hparts, _⟩
      cases before <;> cases hparts
  | cons part parts ih =>
    rcases part with ⟨literal, name⟩
    constructor
    · intro h
      unfold renderParts at h
      cases hvalue : renderValue params name with
      | error other =>
        rw [hvalue] at h
        cases h
        exact ⟨[], (literal, name), parts, rfl, by simp, renderValue_eq_error_iff.mp hvalue⟩
      | ok encoded =>
        cases hrest : renderParts params parts with
        | ok rest =>
          rw [hvalue, hrest] at h
          cases h
        | error other =>
          rw [hvalue, hrest] at h
          cases h
          rcases renderValue_eq_ok_iff.mp hvalue with ⟨value, hassigns, _⟩
          rcases ih.mp hrest with ⟨before, part, after, rfl, hbefore, hoffends⟩
          exact ⟨(literal, name) :: before, part, after, rfl,
            List.forall_mem_cons.mpr ⟨⟨value, hassigns⟩, hbefore⟩, hoffends⟩
    · rintro ⟨before, part, after, hparts, hbefore, hoffends⟩
      unfold renderParts
      cases before with
      | nil =>
        cases hparts
        rw [renderValue_eq_error_iff.mpr hoffends]
      | cons first before =>
        cases hparts
        rcases List.forall_mem_cons.mp hbefore with ⟨⟨value, hassigns⟩, hbefore⟩
        have hvalue := renderValue_eq_ok_iff.mpr ⟨value, hassigns, rfl⟩
        have hrest := ih.mpr ⟨before, part, after, rfl, hbefore, hoffends⟩
        rw [hvalue, hrest]

variable {request : Request} {s : Template.Splitting}

theorem renderPath_of_text_eq (h : s.text = request.path.toList) :
    request.renderPath =
      match renderParts request.pathParams s.placeholders with
      | .error e => .error e
      | .ok text =>
        if s.tail.isSome then .error (.configuration (.unterminatedPlaceholder request.path))
        else .ok (text ++ s.last) := by
  have hparse : Template.parse request.path = ⟨s.placeholders, s.last, s.tail.isSome⟩ := by
    unfold Template.parse
    rw [← h, s.ofChars_text]
  unfold renderPath
  dsimp only
  cases hparts : renderParts request.pathParams s.placeholders with
  | error e => rw [hparse, hparts]
  | ok front => rw [hparse, hparts]

theorem renderPath_eq_ok_iff (h : s.text = request.path.toList) :
    request.renderPath = .ok text <->
      s.tail = none ∧ exists values, AssignsAll request.pathParams s.placeholders values ∧
        text = fill s.placeholders values ++ s.last := by
  rw [renderPath_of_text_eq h]
  cases hparts : renderParts request.pathParams s.placeholders with
  | error fault =>
    constructor
    · rintro ⟨⟩
    · rintro ⟨_, values, hall, _⟩
      rw [renderParts_eq_ok_iff.mpr ⟨values, hall, rfl⟩] at hparts
      cases hparts
  | ok front =>
    cases htail : s.tail with
    | none =>
      constructor
      · rintro ⟨⟩
        rcases renderParts_eq_ok_iff.mp hparts with ⟨values, hall, rfl⟩
        exact ⟨rfl, values, hall, rfl⟩
      · rintro ⟨_, values, hall, rfl⟩
        rw [renderParts_eq_ok_iff.mpr ⟨values, hall, rfl⟩] at hparts
        cases hparts
        rfl
    | some tail =>
      constructor
      · rintro ⟨⟩
      · rintro ⟨⟨⟩, _⟩

theorem renderPath_eq_error_iff (h : s.text = request.path.toList) :
    request.renderPath = .error e <->
      (exists before part after, s.placeholders = before ++ part :: after ∧
        (forall earlier, earlier ∈ before ->
          exists value, Assigns request.pathParams earlier.2 value) ∧
        Offends request.pathParams part.2 e) ∨
      (exists tail, s.tail = some tail) ∧
        (exists values, AssignsAll request.pathParams s.placeholders values) ∧
        e = .configuration (.unterminatedPlaceholder request.path) := by
  rw [renderPath_of_text_eq h, ← renderParts_eq_error_iff]
  cases hparts : renderParts request.pathParams s.placeholders with
  | error fault =>
    constructor
    · exact Or.inl
    · rintro (hfirst | ⟨_, ⟨values, hall⟩, _⟩)
      · exact hfirst
      · rw [renderParts_eq_ok_iff.mpr ⟨values, hall, rfl⟩] at hparts
        cases hparts
  | ok front =>
    rcases renderParts_eq_ok_iff.mp hparts with ⟨values, hall, _⟩
    cases htail : s.tail with
    | none =>
      constructor
      · rintro ⟨⟩
      · rintro (hfirst | ⟨⟨tail, ⟨⟩⟩, _⟩)
        cases hfirst
    | some tail =>
      constructor
      · rintro ⟨⟩
        exact Or.inr ⟨⟨tail, rfl⟩, ⟨values, hall⟩, rfl⟩
      · rintro (hfirst | ⟨_, _, rfl⟩)
        · cases hfirst
        · rfl

/-- What becomes of a path that is written as this template: a text if all is well, and otherwise
the error of what is wrong first. -/
structure RendersAs (request : Request) (s : Template.Splitting) : Prop where
  ok_iff : forall text, request.renderPath = .ok text <->
    s.tail = none ∧ exists values, AssignsAll request.pathParams s.placeholders values ∧
      text = fill s.placeholders values ++ s.last
  error_iff : forall e, request.renderPath = .error e <->
    (exists before part after, s.placeholders = before ++ part :: after ∧
      (forall earlier, earlier ∈ before ->
        exists value, Assigns request.pathParams earlier.2 value) ∧
      Offends request.pathParams part.2 e) ∨
    (exists tail, s.tail = some tail) ∧
      (exists values, AssignsAll request.pathParams s.placeholders values) ∧
      e = .configuration (.unterminatedPlaceholder request.path)

/-- Every path is written as a template in one way only, and renders accordingly.  An encoded value
keeps its unreserved characters, has all other bytes escaped, and is read back as it was. -/
theorem templates_render_by_grammar (request : Request) :
    exists s : Template.Splitting, s.text = request.path.toList ∧
      (forall other : Template.Splitting, other.text = request.path.toList -> other = s) ∧
      request.RendersAs s ∧
      forall value : String,
        Percent.encode Percent.isUnreserved value.toList =
          (Utf8.encode value.toList).flatMap Percent.spell ∧
        Utf8.decode (Percent.decode (Percent.encode Percent.isUnreserved value.toList)) =
          some value.toList := by
  rcases Template.Splitting.exists_text_eq request.path.toList with ⟨s, hs⟩
  refine ⟨s, hs, ?_, ⟨fun _ => renderPath_eq_ok_iff hs, fun _ => renderPath_eq_error_iff hs⟩, ?_⟩
  · intro other hother
    exact Template.Splitting.eq_of_text_eq (hother.trans hs.symm)
  · intro value
    refine ⟨Percent.encode_eq_spell value.toList, ?_⟩
    rw [Percent.decode_encode, Utf8.decode_encode]

/-- A brace in a value is not read as part of the template. -/
example :
    ((Request.new .get "\x7ba\x7d/\x7ba\x7d-\x7d").withPathParam "a" "\x7bb\x7d").renderPath =
      .ok "%7Bb%7D/%7Bb%7D-\x7d".toList := by
  decide +kernel

end Request
end RestClient
