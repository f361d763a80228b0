import Mathlib.Data.List.Forall2
import RestClient.Proofs.Coding
import RestClient.Proofs.Extending
import RestClient.Proofs.Values

/-!
# Reading back what was written

The compact text of a value is the plain text of a form, and decoding that form gives the value
back.  A string comes back character by character: the bytes that are written for a character are
read as the bytes of its UTF-8 form, whatever stands behind them.
-/

namespace RestClient
namespace Json

open Reader

variable {α : Type} {types : List Type}

/-!
## Strings
-/

theorem prepend_nil (result : Except Failure (List UInt8 × List UInt8)) :
    prepend [] result = result := by
  cases result <;> rfl

theorem prepend_append (bytes more : List UInt8)
    (result : Except Failure (List UInt8 × List UInt8)) :
    prepend (bytes ++ more) result = prepend bytes (prepend more result) := by
  rcases result with failure | ⟨read, rest⟩
  · rfl
  · exact congrArg (fun read => Except.ok (read, rest)) (List.append_assoc bytes more read)

structure StandsFor (front bytes : List UInt8) : Prop where
  isContent : forall {rest : List UInt8}, IsContent rest -> IsContent (front ++ rest)
  content_eq : forall s : List UInt8, content (front ++ s) = prepend bytes (content s)

theorem standsFor_nil : StandsFor [] [] where
  isContent := id
  content_eq s := (prepend_nil (content s)).symm

theorem StandsFor.append {front bytes front' bytes' : List UInt8} (h : StandsFor front bytes)
    (h' : StandsFor front' bytes') : StandsFor (front ++ front') (bytes ++ bytes') where
  isContent hrest := by
    rw [List.append_assoc]
    exact h.isContent (h'.isContent hrest)
  content_eq s := by
    rw [List.append_assoc, h.content_eq, h'.content_eq, prepend_append]

theorem standsFor_plain {b : UInt8} (h : IsPlain b) : StandsFor [b] [b] where
  isContent hrest := .plain h.1 h.2.1 h.2.2 hrest
  content_eq := content_plain h.1 h.2.1 h.2.2

theorem standsFor_of_isPlain {raw : List UInt8} (h : forall b, b ∈ raw -> IsPlain b) :
    StandsFor raw raw := by
  induction raw with
  | nil => exact standsFor_nil
  | cons b raw ih =>
    have hrest := ih fun c hc => h c (List.mem_cons_of_mem b hc)
    exact (standsFor_plain (h b List.mem_cons_self)).append hrest

theorem standsFor_short {e c : UInt8} (he : e ∈ shortEscapes) (hc : shortEscape? e = some c) :
    StandsFor [byte '\\', e] [c] where
  isContent := .short he
  content_eq := content_short he hc

theorem standsFor_unit {a b c d : UInt8} {n : Nat}
    (hhex : forall x, x ∈ [a, b, c, d] -> isHex x = true)
    (hn : hexUnit? a b c d = some n) (hlow : isLowSurrogate n = false)
    (hhigh : isHighSurrogate n = false) :
    StandsFor [byte '\\', byte 'u', a, b, c, d] (codePoint n) where
  isContent := .unit hhex
  content_eq := content_unit hn hlow hhigh

/-- The characters that are written as a backslash and a letter. -/
def lettered : List Char := ['"', '\\', '\x08', '\t', '\n', '\x0c', '\r']

theorem escape_lettered {c : Char} (h : c ∈ lettered) : exists e, e ∈ shortEscapes ∧
    Utf8.encode (escapeChar c) = [byte '\\', e] ∧ shortEscape? e = some (byte c) ∧
      String.utf8EncodeChar c = [byte c] := by
  unfold lettered at h
  simp only [List.mem_cons, List.not_mem_nil, or_false] at h
  rcases h with rfl | rfl | rfl | rfl | rfl | rfl | rfl
  · exact ⟨byte '"', by decide, by decide +kernel, rfl, by decide +kernel⟩
  · exact ⟨byte '\\', by decide, by decide +kernel, rfl, by decide +kernel⟩
  · exact ⟨byte 'b', by decide, by decide +kernel, rfl, by decide +kernel⟩
  · exact ⟨byte 't', by decide, by decide +kernel, rfl, by decide +kernel⟩
  · exact ⟨byte 'n', by decide, by decide +kernel, rfl, by decide +kernel⟩
  · exact ⟨byte 'f', by decide, by decide +kernel, rfl, by decide +kernel⟩
  · exact ⟨byte 'r', by decide, by decide +kernel, rfl, by decide +kernel⟩

def controlDigits (n : Nat) : List UInt8 :=
  [byte '0', byte '0', byte (Nat.digitChar (n / 16)), byte (Nat.digitChar (n % 16))]

theorem escape_control : forall n, n < 32 -> Char.ofNat n ∉ lettered ->
    Utf8.encode (escapeChar (Char.ofNat n)) = byte '\\' :: byte 'u' :: controlDigits n ∧
      (controlDigits n).all isHex = true ∧
      hexUnit? (byte '0') (byte '0') (byte (Nat.digitChar (n / 16)))
          (byte (Nat.digitChar (n % 16))) = some n ∧
        isLowSurrogate n = false ∧ isHighSurrogate n = false := by
  decide +kernel

theorem escapeChar_eq_self {c : Char} (hlettered : c ∉ lettered) (hcontrol : ¬ c.toNat < 32) :
    escapeChar c = [c] := by
  unfold lettered at hlettered
  simp only [List.mem_cons, List.not_mem_nil, or_false, not_or] at hlettered
  rcases hlettered with ⟨hquote, hescape, hb, ht, hn, hf, hr⟩
  unfold escapeChar
  simp only [beq_iff_eq, hquote, hescape, hb, ht, hn, hf, hr, if_false, hcontrol]

theorem isPlain_of_mem_utf8EncodeChar {c : Char} (hlettered : c ∉ lettered)
    (hcontrol : ¬ c.toNat < 32) {b : UInt8} (hb : b ∈ String.utf8EncodeChar c) : IsPlain b := by
  have hne : forall d, d ∈ lettered -> c.toNat ≠ d.toNat := by
    intro d hd heq
    exact hlettered (Char.toNat_inj.mp heq ▸ hd)
  have hquote : c.toNat ≠ 34 := hne '"' (by decide)
  have hescape : c.toNat ≠ 92 := hne '\\' (by decide)
  have hplain : b.toNat ≠ 34 ∧ b.toNat ≠ 92 ∧ ¬ b.toNat < 32 := by
    rcases Utf8.mem_utf8EncodeChar hb with ⟨hascii, rfl⟩ | ⟨_, hbyte⟩
    · rw [Utf8.toNat_ofNat (by omega)]
      exact ⟨hquote, hescape, hcontrol⟩
    · omega
  refine ⟨?_, ?_, ?_⟩
  · rintro rfl
    exact hplain.1 rfl
  · rintro rfl
    exact hplain.2.1 rfl
  · exact hplain.2.2

theorem standsFor_escapeChar (c : Char) :
    StandsFor (Utf8.encode (escapeChar c)) (String.utf8EncodeChar c) := by
  by_cases hlettered : c ∈ lettered
  · rcases escape_lettered hlettered with ⟨e, he, htext, hshort, hbytes⟩
    rw [htext, hbytes]
    exact standsFor_short he hshort
  by_cases hcontrol : c.toNat < 32
  · have hchar : Char.ofNat c.toNat = c := Char.ofNat_toNat c
    rcases escape_control c.toNat hcontrol (hchar.symm ▸ hlettered) with
      ⟨htext, hhex, hunit, hlow, hhigh⟩
    have hstands := standsFor_unit (List.all_eq_true.mp hhex) hunit hlow hhigh
    unfold codePoint at hstands
    rw [hchar] at htext hstands
    rw [htext]
    exact hstands
  · have hbytes : Utf8.encode [c] = String.utf8EncodeChar c := List.flatMap_singleton _ c
    rw [escapeChar_eq_self hlettered hcontrol, hbytes]
    exact standsFor_of_isPlain fun b hb => isPlain_of_mem_utf8EncodeChar hlettered hcontrol hb

theorem standsFor_escaped (text : List Char) :
    StandsFor (Utf8.encode (text.flatMap escapeChar)) (Utf8.encode text) := by
  induction text with
  | nil => exact standsFor_nil
  | cons c rest ih =>
    rw [List.flatMap_cons, Utf8.encode_append]
    exact (standsFor_escapeChar c).append ih

theorem isContent_escaped (text : List Char) :
    IsContent (Utf8.encode (text.flatMap escapeChar)) := by
  have hcontent := (standsFor_escaped text).isContent .nil
  rw [List.append_nil] at hcontent
  exact hcontent

def writtenKey (name : String) : Key := ⟨_, isContent_escaped name.toList⟩

def writtenString (text : String) : Form := .scalar ⟨_, .string (isContent_escaped text.toList)⟩

theorem stringBody_escaped (text : String) (rest : List UInt8) :
    stringBody (Utf8.encode (text.toList.flatMap escapeChar) ++ byte '"' :: rest) =
      .ok (text, rest) := by
  unfold stringBody
  rw [(standsFor_escaped text.toList).content_eq, content_quote]
  dsimp only [prepend]
  rw [List.append_nil, Utf8.decode_encode]
  dsimp only
  rw [String.ofList_toList]

theorem name?_writtenKey (name : String) : (writtenKey name).name? = some name :=
  congrArg found (stringBody_escaped name [])

theorem token_writtenString (text : String) :
    token (writtenString text).text = .ok (.string text, []) :=
  congrArg (mapRead Token.string) (stringBody_escaped text [])

theorem encode_renderString (text : String) :
    Utf8.encode (renderString text) =
      byte '"' :: (Utf8.encode (text.toList.flatMap escapeChar) ++ [byte '"']) := by
  unfold renderString
  rw [Utf8.encode_append]
  rfl

/-!
## Written texts
-/

theorem separated_cons (part : List Char) (parts : List (List Char)) :
    separated (part :: parts) = part ++ parts.flatMap (',' :: ·) := by
  induction parts generalizing part with
  | nil => exact (List.append_nil part).symm
  | cons next parts ih =>
    show part ++ ',' :: separated (next :: parts) = _
    rw [ih next]
    rfl

theorem itemsText_false {items : List Json} {forms : List Form}
    (h : List.Forall₂ (fun item form => form.text = item.toBytes) items forms) :
    itemsText false forms =
      Utf8.encode ((renderItems items).flatMap (',' :: ·)) ++ [byte ']'] := by
  induction h with
  | nil => rfl
  | @cons item form items forms hform _ ih =>
    have hparts : (renderItems (item :: items)).flatMap (',' :: ·) =
        ',' :: (item.render ++ (renderItems items).flatMap (',' :: ·)) := rfl
    rw [itemsText, ih, hform, hparts]
    show byte ',' :: (Utf8.encode item.render ++ _) = byte ',' :: (Utf8.encode _ ++ _)
    rw [Utf8.encode_append, List.append_assoc]

theorem text_list {items : List Json} {forms : List Form}
    (h : List.Forall₂ (fun item form => form.text = item.toBytes) items forms) :
    (Form.list forms).text = (Json.array items).toBytes := by
  have hbytes : (Json.array items).toBytes =
      byte '[' :: Utf8.encode (separated (renderItems items) ++ [']']) := rfl
  rw [Form.text, hbytes, Utf8.encode_append]
  cases h with
  | nil => rfl
  | @cons item form items forms hform h =>
    have hparts : renderItems (item :: items) = item.render :: renderItems items := rfl
    rw [hparts, separated_cons, Utf8.encode_append, itemsText, itemsText_false h, hform]
    show byte '[' :: (Utf8.encode item.render ++ _) = byte '[' :: (_ ++ [byte ']'])
    rw [List.append_assoc]

def WrittenAs (member : String × Json) (form : Key × Form) : Prop :=
  form.1 = writtenKey member.1 ∧ form.2.text = member.2.toBytes

def memberBytes (member : String × Json) : List UInt8 :=
  byte '"' :: (Utf8.encode (member.1.toList.flatMap escapeChar) ++
    (byte '"' :: (byte ':' :: member.2.toBytes)))

theorem encode_renderMember (member : String × Json) :
    Utf8.encode (renderString member.1 ++ ':' :: member.2.render) = memberBytes member := by
  unfold memberBytes
  rw [Utf8.encode_append, encode_renderString, List.cons_append, List.append_assoc]
  rfl

theorem membersText_cons {member : String × Json} {form : Key × Form}
    (h : WrittenAs member form) (first : Bool) (forms : List (Key × Form)) :
    membersText first (form :: forms) =
      separator first ++ (memberBytes member ++ membersText false forms) := by
  rcases form with ⟨key, form⟩
  rcases h with ⟨rfl, htext⟩
  unfold memberBytes
  rw [membersText, htext]
  simp [writtenKey]

theorem membersText_false {members : List (String × Json)} {forms : List (Key × Form)}
    (h : List.Forall₂ WrittenAs members forms) :
    membersText false forms =
      Utf8.encode ((renderMembers members).flatMap (',' :: ·)) ++ [byte '\x7d'] := by
  induction h with
  | nil => rfl
  | @cons member form members forms hform _ ih =>
    have hparts : (renderMembers (member :: members)).flatMap (',' :: ·) =
        ',' :: ((renderString member.1 ++ ':' :: member.2.render) ++
          (renderMembers members).flatMap (',' :: ·)) := rfl
    rw [membersText_cons hform, ih, hparts]
    show byte ',' :: (memberBytes member ++ _) = byte ',' :: (Utf8.encode (_ ++ _) ++ _)
    rw [Utf8.encode_append, encode_renderMember, List.append_assoc]

theorem text_object {members : List (String × Json)} {forms : List (Key × Form)}
    (h : List.Forall₂ WrittenAs members forms) :
    (Form.object forms).text = (Json.object members).toBytes := by
  have hbytes : (Json.object members).toBytes =
      byte '\x7b' :: Utf8.encode (separated (renderMembers members) ++ ['\x7d']) := rfl
  rw [Form.text, hbytes, Utf8.encode_append]
  cases h with
  | nil => rfl
  | @cons member form members forms hform h =>
    have hparts : renderMembers (member :: members) =
        (renderString member.1 ++ ':' :: member.2.render) :: renderMembers members := rfl
    rw [hparts, separated_cons, Utf8.encode_append, encode_renderMember, membersText_cons hform,
      membersText_false h]
    show byte '\x7b' :: (memberBytes member ++ _) = byte '\x7b' :: (_ ++ [byte '\x7d'])
    rw [List.append_assoc]

/-!
## Round trips
-/

/-- The form is the text of the value, and the decoder makes `a` of it as soon as it may open so
many brackets. -/
structure Carries (decoder : Decoder α) (depth : Nat) (value : Json) (a : α) (form : Form) :
    Prop where
  text_eq : form.text = value.toBytes
  valueOf_eq :
    forall {allowance : Nat}, depth ≤ allowance -> valueOf decoder allowance form = some a

namespace Carries

variable {decoder : Decoder α} {depth : Nat} {value : Json} {a : α} {form : Form}

theorem mono (h : Carries decoder depth value a form) {depth' : Nat} (hdepth : depth ≤ depth') :
    Carries decoder depth' value a form where
  text_eq := h.text_eq
  valueOf_eq hallowance := h.valueOf_eq (Nat.le_trans hdepth hallowance)

theorem writes (h : Carries decoder depth value a form) : Writes form value.toBytes :=
  h.text_eq ▸ writes_text form

theorem decodeWith_eq (h : Carries decoder depth value a form) (hsteady : Steady decoder)
    {allowance : Nat} (hdepth : depth ≤ allowance) :
    decodeWith decoder allowance value.toBytes = .ok a :=
  (hsteady.decodeWith_eq_ok_iff allowance h.writes a).mpr (h.valueOf_eq hdepth)

theorem mapRead {β : Type} (h : Carries decoder depth value a form) (f : α -> β) :
    Carries (fun allowance s => Reader.mapRead f (decoder allowance s)) depth value (f a) form where
  text_eq := h.text_eq
  valueOf_eq {allowance} hdepth := by
    have hvalue := congrArg (Option.map f) (h.valueOf_eq hdepth)
    rw [valueOf, ← found_mapRead] at hvalue
    exact hvalue

end Carries

theorem Accepts.valueOf_eq {decoder : Decoder α} {accept : Token -> Option α}
    (h : Accepts decoder accept) {form : Form} {t : Token} (ht : token form.text = .ok (t, []))
    (allowance : Nat) : valueOf decoder allowance form = accept t := by
  have haccept := h allowance form.text
  rw [ht] at haccept
  exact haccept.found_eq

theorem text_writtenString (text : String) :
    (writtenString text).text = (encode text : Json).toBytes :=
  (encode_renderString text).symm

theorem carries_string (text : String) :
    Carries decoder 0 (encode text) text (writtenString text) where
  text_eq := text_writtenString text
  valueOf_eq _ := accepts_string.valueOf_eq (token_writtenString text) _

def writtenBool : Bool -> Form
  | true => .scalar ⟨_, .true⟩
  | false => .scalar ⟨_, .false⟩

theorem token_writtenBool (b : Bool) : token (writtenBool b).text = .ok (.bool b, []) := by
  cases b <;> rfl

theorem text_writtenBool (b : Bool) : (writtenBool b).text = (encode b : Json).toBytes := by
  cases b <;> rfl

theorem carries_bool (b : Bool) : Carries decoder 0 (encode b) b (writtenBool b) where
  text_eq := text_writtenBool b
  valueOf_eq _ := accepts_bool.valueOf_eq (token_writtenBool b) _

theorem carries_absent (item : Decoder α) :
    Carries (optionOf item) 0 .null none (.scalar ⟨nullText, .null⟩) where
  text_eq := rfl
  valueOf_eq _ := (reads_optionOf_null item _ rfl).valueOf_eq

theorem Carries.present {item : Decoder α} {depth : Nat} {value : Json} {a : α} {form : Form}
    (h : Carries item depth value a form) (hsteady : Steady item) (hne : form.text ≠ nullText) :
    Carries (optionOf item) depth value (some a) form where
  text_eq := h.text_eq
  valueOf_eq hdepth := by
    rw [(reads_optionOf_some (hsteady.reads _ form) hne).valueOf_eq, h.valueOf_eq hdepth]
    rfl

theorem exists_carries_optional (text : Option String) :
    exists form, Carries decoder 0 (encode text) text form := by
  cases text with
  | none => exact ⟨_, carries_absent decoder⟩
  | some text =>
    have hne : (writtenString text).text ≠ nullText := by
      intro heq
      exact absurd (List.cons.inj heq).1 (by decide)
    exact ⟨_, (carries_string text).present steady_string hne⟩

theorem exists_carries_list [Encode α] {item : Decoder α} (hsteady : Steady item) {depth : Nat}
    {items : List α}
    (h : forall a, a ∈ items -> exists form, Carries item depth (encode a) a form) :
    exists form, Carries (listOf item) (depth + 1) (encode items) items form := by
  have hforms : exists forms,
      List.Forall₂ (fun item form => form.text = item.toBytes) (items.map encode) forms ∧
        forall {allowance : Nat}, depth ≤ allowance ->
          forms.mapM (valueOf item allowance) = some items := by
    induction items with
    | nil => exact ⟨[], .nil, fun _ => rfl⟩
    | cons a items ih =>
      rcases h a List.mem_cons_self with ⟨form, hform⟩
      rcases ih fun a ha => h a (List.mem_cons_of_mem _ ha) with ⟨forms, htexts, hvalues⟩
      refine ⟨form :: forms, .cons hform.text_eq htexts, ?_⟩
      intro allowance hdepth
      rw [mapM_cons_eq, hform.valueOf_eq hdepth, hvalues hdepth]
      rfl
  rcases hforms with ⟨forms, htexts, hvalues⟩
  refine ⟨.list forms, text_list htexts, ?_⟩
  intro allowance hdepth
  rcases allowance with - | allowance
  · cases hdepth
  · rw [valueOf_list_succ hsteady, hvalues (Nat.le_of_succ_le_succ hdepth)]

/-!
## Records
-/

namespace Fields

/-- The members carry the values of all fields, in their order.  A field that falls back on its
value has no member. -/
inductive Carried (depth : Nat) : {types : List Type} -> Fields types -> Values types ->
    List (String × Json) -> List (Key × Form) -> Prop where
  | nil : Carried depth .nil () [] []
  | cons {α : Type} {types : List Type} {decoder : Decoder α} {rest : Fields types} (name : String)
      (fallback : Option α) {value : Json} {a : α} {form : Form} {values : Values types}
      {members : List (String × Json)} {forms : List (Key × Form)}
      (hvalue : Carries decoder depth value a form) (h : Carried depth rest values members forms) :
      Carried depth (.cons name decoder fallback rest) (a, values) ((name, value) :: members)
        ((writtenKey name, form) :: forms)
  | absent {α : Type} {types : List Type} {decoder : Decoder α} {rest : Fields types}
      (name : String) {a : α} {values : Values types} {members : List (String × Json)}
      {forms : List (Key × Form)} (h : Carried depth rest values members forms) :
      Carried depth (.cons name decoder (some a) rest) (a, values) members forms

variable {fields : Fields types} {depth : Nat} {values : Values types}
  {members : List (String × Json)} {forms : List (Key × Form)}

theorem Carried.writtenAs (h : Carried depth fields values members forms) :
    List.Forall₂ WrittenAs members forms := by
  induction h with
  | nil => exact .nil
  | cons name fallback hvalue h ih => exact .cons ⟨rfl, hvalue.text_eq⟩ ih
  | absent name h ih => exact ih

theorem Carried.names (h : Carried depth fields values members forms) :
    forall member, member ∈ forms ->
      exists name, name ∈ fields.names ∧ member.1.name? = some name := by
  induction h with
  | nil => simp
  | cons name fallback hvalue h ih =>
    intro member hmember
    rcases List.mem_cons.mp hmember with rfl | hmember
    · exact ⟨name, List.mem_cons_self, name?_writtenKey name⟩
    · rcases ih member hmember with ⟨other, hother, hname⟩
      exact ⟨other, List.mem_cons_of_mem name hother, hname⟩
  | absent name h ih =>
    intro member hmember
    rcases ih member hmember with ⟨other, hother, hname⟩
    exact ⟨other, List.mem_cons_of_mem name hother, hname⟩

theorem Carried.isUndeclared (h : Carried depth fields values members forms) {name : String}
    (hname : name ∉ fields.names) :
    forall member, member ∈ forms -> IsUndeclared [name] member := by
  intro member hmember
  rcases h.names member hmember with ⟨key, hkey, hmember⟩
  refine ⟨key, hmember, ?_⟩
  rw [List.mem_singleton]
  rintro rfl
  exact hname hkey

theorem take_of_other {decoder : Decoder α} {name : String}
    (h : forall member, member ∈ forms -> IsUndeclared [name] member) (fallback : Option α)
    (rest : Fields types)
    (allowance : Nat) (slot : Option α) (slots : Option (Slots types)) :
    take (.cons name decoder fallback rest) allowance (slots.map (Slots.cons slot)) forms =
      (rest.take allowance slots forms).map (Slots.cons slot) := by
  induction forms generalizing slots with
  | nil => rfl
  | cons member forms ih =>
    have hplaced : placed (.cons name decoder fallback rest) allowance
        (slots.map (Slots.cons slot)) member =
          (rest.placed allowance slots member).map (Slots.cons slot) := by
      rcases h member List.mem_cons_self with ⟨key, hkey, hne⟩
      unfold placed
      rw [hkey, Option.bind_some, Option.bind_some]
      cases slots with
      | none => rfl
      | some slots => exact place_of_ne (List.ne_of_not_mem_cons hne) allowance member.2 slot slots
    have hrest := ih fun m hm => h m (List.mem_cons_of_mem member hm)
    exact (congrArg (take _ allowance · forms) hplaced).trans (hrest _)

theorem Carried.take_eq (h : Carried depth fields values members forms)
    (hnames : fields.names.Nodup) {allowance : Nat} (hdepth : depth ≤ allowance) :
    exists slots, fields.take allowance (some fields.empty) forms = some slots ∧
      fields.fill slots = .ok values := by
  induction h with
  | nil => exact ⟨(), rfl, rfl⟩
  | @cons α types decoder rest name fallback value a form values members forms hvalue h ih =>
    rcases List.nodup_cons.mp hnames with ⟨hname, hrest⟩
    rcases ih hrest with ⟨slots, htake, hfill⟩
    have hplaced : placed (.cons name decoder fallback rest) allowance
        (some (Slots.cons none rest.empty)) (writtenKey name, form) =
          (some rest.empty).map (Slots.cons (some a)) := by
      unfold placed
      rw [name?_writtenKey, Option.bind_some, Option.bind_some, place_of_eq rfl,
        hvalue.valueOf_eq hdepth]
      rfl
    refine ⟨Slots.cons (some a) slots, ?_, ?_⟩
    · show take _ allowance (placed _ allowance (some (Slots.cons none rest.empty)) _) forms = _
      rw [hplaced, take_of_other (h.isUndeclared hname), htake]
      rfl
    · unfold fill
      dsimp only [Slots.cons]
      rw [hfill]
      rfl
  | @absent α types decoder rest name a values members forms h ih =>
    rcases List.nodup_cons.mp hnames with ⟨hname, hrest⟩
    rcases ih hrest with ⟨slots, htake, hfill⟩
    refine ⟨Slots.cons none slots, ?_, ?_⟩
    · show take _ allowance ((some rest.empty).map (Slots.cons none)) forms = _
      rw [take_of_other (h.isUndeclared hname), htake]
      rfl
    · unfold fill
      dsimp only [Slots.cons]
      rw [hfill]
      rfl

end Fields

theorem Record.carries {record : Record types α} (h : record.fields.AreSteady)
    (hnames : record.fields.names.Nodup) {depth : Nat} {values : Values types}
    {members : List (String × Json)} {forms : List (Key × Form)}
    (hcarried : record.fields.Carried depth values members forms) :
    Carries record.decoder (depth + 1) (.object members) (record.build values)
      (.object forms) where
  text_eq := text_object hcarried.writtenAs
  valueOf_eq {allowance} hdepth := by
    rcases allowance with - | allowance
    · cases hdepth
    · rcases hcarried.take_eq hnames (Nat.le_of_succ_le_succ hdepth) with ⟨slots, htake, hfill⟩
      rw [valueOf_object_succ h]
      unfold valueOfMembers
      rw [htake, Option.bind_some, hfill]
      rfl

/-!
## Plain values
-/

theorem valueOf_any {form : Form} {t : Token} {value : Json}
    (ht : token form.text = .ok (t, [])) (hvalue : t.value? = some value) (allowance : Nat) :
    valueOf any allowance form = some value := by
  unfold valueOf any
  rw [ht]
  cases t <;> cases hvalue <;> rfl

theorem carries_any_string (text : String) :
    Carries any 0 (encode text) (encode text) (writtenString text) where
  text_eq := text_writtenString text
  valueOf_eq {allowance} _ := valueOf_any (token_writtenString text) rfl allowance

theorem carries_any_bool (b : Bool) : Carries any 0 (encode b) (encode b) (writtenBool b) where
  text_eq := text_writtenBool b
  valueOf_eq {allowance} _ := valueOf_any (token_writtenBool b) rfl allowance

def CarriesMember (depth : Nat) (member : String × Json) (form : Key × Form) : Prop :=
  form.1 = writtenKey member.1 ∧ Carries any depth member.2 member.2 form.2

theorem carries_any_object {depth : Nat} {members : List (String × Json)}
    {forms : List (Key × Form)} (h : List.Forall₂ (CarriesMember depth) members forms) :
    Carries any (depth + 1) (.object members) (ofMembers members) (.object forms) where
  text_eq := text_object (h.imp fun _ _ hmember => ⟨hmember.1, hmember.2.text_eq⟩)
  valueOf_eq {allowance} hdepth := by
    rcases allowance with - | allowance
    · cases hdepth
    · have hvalues : forms.mapM (memberOf any allowance) = some members := by
        induction h with
        | nil => rfl
        | @cons member form members forms hmember _ ih =>
          have hvalue : memberOf any allowance form = some member := by
            unfold memberOf
            rw [hmember.1, name?_writtenKey, Option.bind_some,
              hmember.2.valueOf_eq (Nat.le_of_succ_le_succ hdepth)]
            rfl
          rw [mapM_cons_eq, hvalue, ih]
          rfl
      rw [valueOf_any_object, hvalues]
      rfl

end Json
end RestClient
