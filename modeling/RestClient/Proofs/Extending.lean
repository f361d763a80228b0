import Mathlib.Data.List.Forall2
import RestClient.Error
import RestClient.Page
import RestClient.Proofs.Records
import RestClient.Sample
import RestClient.Users

/-!
# New members

A provider may add members to the objects it sends, write them in another order and space them
differently: what is decoded stays the same.  To send a field twice is an error.
-/

namespace RestClient
namespace Json

variable {α : Type} {types : List Type}

/-!
## Objects and lists of them
-/

/-- The members of one object, their values changed as the relation says, stand in the other
object among new members, in any order. -/
inductive ObjectVaries (names : List String) (changes : Key -> Form -> Form -> Prop) :
    Form -> Form -> Prop where
  | mk {members changed new members' : List (Key × Form)}
      (hchanged : List.Forall₂ (fun m m' => m.1 = m'.1 ∧ changes m.1 m.2 m'.2) members changed)
      (hnew : forall m, m ∈ new -> Fields.IsUndeclared names m)
      (hperm : (changed ++ new).Perm members') :
      ObjectVaries names changes (.object members) (.object members')

inductive ListVaries (changes : Form -> Form -> Prop) : Form -> Form -> Prop where
  | mk {items items' : List Form} (h : List.Forall₂ changes items items') :
      ListVaries changes (.list items) (.list items')

inductive ListHas (spoils : Form -> Prop) : Form -> Prop where
  | mk {items : List Form} {form : Form} (hmem : form ∈ items) (h : spoils form) :
      ListHas spoils (.list items)

namespace Record

/-- The object has new members in any order, and the values of its fields differ only as the
relation says. -/
def Varies (record : Record types α) (nested : String -> Form -> Form -> Prop)
    (form form' : Form) : Prop :=
  form = form' ∨ ObjectVaries record.fields.names
    (fun key form form' => form = form' ∨
      exists name, key.name? = some name ∧ nested name form form')
    form form'

/-- A field stands twice in the object, or has a value of which the predicate says so. -/
inductive Repeats (record : Record types α) (nested : String -> Form -> Prop) : Form -> Prop where
  | here {name : String} {members : List (Key × Form)} (hname : name ∈ record.fields.names)
      (h : Fields.Repeats name members) : Repeats record nested (.object members)
  | inside {key : Key} {name : String} {form : Form} {members : List (Key × Form)}
      (hmem : (key, form) ∈ members) (hname : key.name? = some name) (h : nested name form) :
      Repeats record nested (.object members)

theorem valueOf_object_zero (record : Record types α) (members : List (Key × Form)) :
    valueOf record.decoder 0 (.object members) = none := by
  unfold valueOf
  rw [Form.text]
  rfl

theorem valueOf_object_succ {record : Record types α} (h : record.fields.AreSteady)
    (allowance : Nat) (members : List (Key × Form)) :
    valueOf record.decoder (allowance + 1) (.object members) =
      record.valueOfMembers allowance members :=
  (reads_object h allowance members).valueOf_eq

theorem take_of_changed {record : Record types α} {changes : Key -> Form -> Form -> Prop}
    {allowance : Nat}
    (hchanges : forall {key form form'}, changes key form form' -> forall slots,
      record.fields.placed allowance slots (key, form) =
        record.fields.placed allowance slots (key, form'))
    {members changed : List (Key × Form)}
    (h : List.Forall₂ (fun m m' => m.1 = m'.1 ∧ changes m.1 m.2 m'.2) members changed)
    (slots : Option (Slots types)) :
    record.fields.take allowance slots members = record.fields.take allowance slots changed := by
  induction h generalizing slots with
  | nil => rfl
  | @cons m m' members changed hm h ih =>
    rcases m with ⟨key, form⟩
    rcases m' with ⟨key', form'⟩
    rcases hm with ⟨rfl, hm⟩
    have hplaced := hchanges hm slots
    exact (ih _).trans (congrArg (record.fields.take allowance · changed) hplaced)

theorem valueOf_of_varies {record : Record types α} (h : record.fields.AreSteady)
    {nested : String -> Form -> Form -> Prop}
    (hnested : forall {name form form'}, nested name form form' -> forall allowance slots,
      record.fields.place allowance name form slots =
        record.fields.place allowance name form' slots)
    {form form' : Form} (hvaries : record.Varies nested form form') (allowance : Nat) :
    valueOf record.decoder allowance form = valueOf record.decoder allowance form' := by
  rcases hvaries with rfl | @⟨members, changed, new, members', hchanged, hnew, hperm⟩
  · rfl
  · cases allowance with
    | zero => rw [valueOf_object_zero, valueOf_object_zero]
    | succ allowance =>
      have hplaced : forall {key : Key} {form form' : Form},
          (form = form' ∨ exists name, key.name? = some name ∧ nested name form form') ->
            forall slots,
          record.fields.placed allowance slots (key, form) =
            record.fields.placed allowance slots (key, form') := by
        intro key form form' hchange slots
        rcases hchange with rfl | ⟨name, hname, hchange⟩
        · rfl
        · unfold Fields.placed
          rw [hname, Option.bind_some, Option.bind_some]
          exact Option.bind_congr fun slots _ => hnested hchange allowance slots
      rw [valueOf_object_succ h, valueOf_object_succ h]
      unfold valueOfMembers
      rw [← Fields.take_perm hperm, Fields.take_append, Fields.take_of_undeclared hnew,
        take_of_changed hplaced hchanged]

/-- A field that is sent twice leaves no value. -/
theorem valueOf_of_repeats {record : Record types α} (h : record.fields.AreSteady)
    {nested : String -> Form -> Prop}
    (hnested : forall {name form}, nested name form -> forall allowance slots,
      record.fields.place allowance name form slots = none)
    {form : Form} (hrepeats : record.Repeats nested form) (allowance : Nat) :
    valueOf record.decoder allowance form = none := by
  cases allowance with
  | zero => cases hrepeats <;> exact valueOf_object_zero record _
  | succ allowance =>
    cases hrepeats with
    | here hname hrepeats =>
      rw [valueOf_object_succ h]
      unfold valueOfMembers
      rw [Fields.take_of_repeats hname hrepeats]
      rfl
    | @inside key name form members hmem hname hinside =>
      have hspoiled : forall slots, record.fields.placed allowance slots (key, form) = none := by
        intro slots
        unfold Fields.placed
        rw [hname, Option.bind_some]
        cases slots with
        | none => rfl
        | some slots => exact hnested hinside allowance slots
      rw [valueOf_object_succ h]
      unfold valueOfMembers
      rw [Fields.take_of_spoiled hspoiled hmem]
      rfl

end Record

theorem valueOf_list_succ {item : Decoder α} (h : Steady item) (allowance : Nat)
    (items : List Form) :
    valueOf (listOf item) (allowance + 1) (.list items) =
      items.mapM (valueOf item allowance) :=
  (reads_list h allowance items).valueOf_eq

theorem valueOf_list_zero (item : Decoder α) (items : List Form) :
    valueOf (listOf item) 0 (.list items) = none := by
  unfold valueOf
  rw [Form.text]
  rfl

theorem valueOf_of_listVaries {item : Decoder α} (h : Steady item)
    {changes : Form -> Form -> Prop}
    (hchanges : forall {form form'}, changes form form' -> forall allowance,
      valueOf item allowance form = valueOf item allowance form')
    {form form' : Form} (hvaries : ListVaries changes form form') (allowance : Nat) :
    valueOf (listOf item) allowance form = valueOf (listOf item) allowance form' := by
  rcases hvaries with @⟨items, items', hitems⟩
  cases allowance with
  | zero => rw [valueOf_list_zero, valueOf_list_zero]
  | succ allowance =>
    rw [valueOf_list_succ h, valueOf_list_succ h]
    induction hitems with
    | nil => rfl
    | cons hform hitems ih => rw [List.mapM_cons, List.mapM_cons, hchanges hform, ih]

theorem valueOf_of_listHas {item : Decoder α} (h : Steady item) {spoils : Form -> Prop}
    (hspoils : forall {form}, spoils form -> forall allowance, valueOf item allowance form = none)
    {form : Form} (hhas : ListHas spoils form) (allowance : Nat) :
    valueOf (listOf item) allowance form = none := by
  rcases hhas with @⟨items, form, hmem, hform⟩
  cases allowance with
  | zero => exact valueOf_list_zero item items
  | succ allowance =>
    rw [valueOf_list_succ h]
    induction items with
    | nil => cases hmem
    | cons other items ih =>
      rw [List.mapM_cons]
      rcases List.mem_cons.mp hmem with rfl | hmem
      · rw [hspoils hform]
        rfl
      · rw [ih hmem]
        cases valueOf item allowance other <;> rfl

/-!
## Tolerant decoders
-/

/-- The decoder makes the same of forms that vary, and nothing of a form that repeats a field. -/
structure Tolerates (decoder : Decoder α) (varies : Form -> Form -> Prop) (repeats : Form -> Prop) :
    Prop where
  steady : Steady decoder
  valueOf_eq : forall {form form'}, varies form form' -> forall allowance,
    valueOf decoder allowance form = valueOf decoder allowance form'
  valueOf_eq_none :
    forall {form}, repeats form -> forall allowance, valueOf decoder allowance form = none

namespace Tolerates

variable {decoder : Decoder α} {varies : Form -> Form -> Prop} {repeats : Form -> Prop}

theorem decodeWith_iff (h : Tolerates decoder varies repeats) {allowance : Nat}
    {form form' : Form} {text text' : List UInt8} (htext : Writes form text)
    (htext' : Writes form' text') (hvaries : varies form form') (a : α) :
    decodeWith decoder allowance text = .ok a <-> decodeWith decoder allowance text' = .ok a := by
  rw [h.steady.decodeWith_eq_ok_iff allowance htext, h.steady.decodeWith_eq_ok_iff allowance htext',
    h.valueOf_eq hvaries]

theorem exists_decodeWith_error (h : Tolerates decoder varies repeats) {allowance : Nat}
    {form : Form} {text : List UInt8} (htext : Writes form text) (hrepeats : repeats form) :
    exists e, decodeWith decoder allowance text = .error e := by
  have hnone := h.valueOf_eq_none hrepeats allowance
  cases hdecode : decodeWith decoder allowance text with
  | error e => exact ⟨e, rfl⟩
  | ok a =>
    rw [h.steady.decodeWith_eq_ok_iff allowance htext, hnone] at hdecode
    cases hdecode

end Tolerates

def InList (name : String) (changes : Form -> Form -> Prop) (key : String) (form form' : Form) :
    Prop :=
  key = name ∧ ListVaries changes form form'

def SomeInList (name : String) (spoils : Form -> Prop) (key : String) (form : Form) : Prop :=
  key = name ∧ ListHas spoils form

namespace Record

theorem tolerates {record : Record types α} (h : record.fields.AreSteady) :
    Tolerates record.decoder (record.Varies fun _ _ _ => False)
      (record.Repeats fun _ _ => False) where
  steady := steady h
  valueOf_eq := valueOf_of_varies h False.elim
  valueOf_eq_none := valueOf_of_repeats h False.elim

theorem tolerates_inList {β : Type} {record : Record (List β :: types) α} {name : String}
    {item : Decoder β} {fallback : Option (List β)} {rest : Fields types}
    (h : record.fields.AreSteady)
    (hfields : record.fields = .cons name (listOf item) fallback rest)
    {varies : Form -> Form -> Prop} {repeats : Form -> Prop}
    (hitem : Tolerates item varies repeats) :
    Tolerates record.decoder (record.Varies (InList name varies))
      (record.Repeats (SomeInList name repeats)) where
  steady := steady h
  valueOf_eq := by
    apply valueOf_of_varies h
    rintro key form form' ⟨rfl, hlist⟩ allowance slots
    rw [hfields]
    apply Fields.place_congr
    exact valueOf_of_listVaries hitem.steady hitem.valueOf_eq hlist allowance
  valueOf_eq_none := by
    apply valueOf_of_repeats h
    rintro key form ⟨rfl, hlist⟩ allowance slots
    rw [hfields]
    apply Fields.place_of_none
    exact valueOf_of_listHas hitem.steady hitem.valueOf_eq_none hlist allowance

end Record
end Json

open Json

/-!
## Users, pages and error bodies
-/

namespace User

/-- The user has new members. -/
def Varies : Form -> Form -> Prop := record.Varies fun _ _ _ => False

/-- A field of the user stands twice. -/
def Repeats : Form -> Prop := record.Repeats fun _ _ => False

theorem areSteady : record.fields.AreSteady :=
  .cons "username" none steady_string <|
  .cons "email" none steady_string <|
  .cons "restricted" none steady_bool <|
  .cons "ssh_keys" (some []) (steady_listOf steady_string) <|
  .cons "tfa_enabled" (some false) steady_bool <|
  .cons "verified_phone_number" (some none) (steady_optionOf steady_string) <|
  .cons "password_created" (some none) (steady_optionOf steady_string) <|
  .cons "user_type" (some none) (steady_optionOf steady_string) .nil

theorem tolerates : Tolerates record.decoder Varies Repeats :=
  Record.tolerates areSteady

end User

namespace Page

abbrev userRecord : Record [List User, UInt32, UInt32, UInt64] (Page User) := record

/-- The page has new members, or users on it have. -/
def Varies : Form -> Form -> Prop := userRecord.Varies (InList "data" User.Varies)

/-- A field of the page or of a user on it stands twice. -/
def Repeats : Form -> Prop := userRecord.Repeats (SomeInList "data" User.Repeats)

theorem areSteady : userRecord.fields.AreSteady :=
  .cons "data" none (steady_listOf User.tolerates.steady) <|
  .cons "page" none steady_uint32 <|
  .cons "pages" none steady_uint32 <|
  .cons "results" none steady_uint64 .nil

theorem tolerates : Tolerates userRecord.decoder Varies Repeats :=
  Record.tolerates_inList areSteady rfl User.tolerates

end Page

namespace Reason

/-- The reason has new members. -/
def Varies : Form -> Form -> Prop := record.Varies fun _ _ _ => False

/-- A field of the reason stands twice. -/
def Repeats : Form -> Prop := record.Repeats fun _ _ => False

theorem areSteady : record.fields.AreSteady :=
  .cons "field" (some none) (steady_optionOf steady_string) <|
  .cons "reason" none steady_string .nil

theorem tolerates : Tolerates record.decoder Varies Repeats :=
  Record.tolerates areSteady

end Reason

namespace ErrorEnvelope

/-- The body has new members, or reasons in it have. -/
def Varies : Form -> Form -> Prop := record.Varies (InList "errors" Reason.Varies)

/-- A field of the body or of a reason in it stands twice. -/
def Repeats : Form -> Prop := record.Repeats (SomeInList "errors" Reason.Repeats)

theorem areSteady : record.fields.AreSteady :=
  .cons "errors" none (steady_listOf Reason.tolerates.steady) .nil

theorem tolerates : Tolerates record.decoder Varies Repeats :=
  Record.tolerates_inList areSteady rfl Reason.tolerates

end ErrorEnvelope

/-- The spaces, the order of the members and new members do not change what is decoded; a field
that stands twice makes decoding fail. -/
theorem decoding_ignores_new_members_only {form form' : Form} {text text' : List UInt8}
    (htext : Writes form text) (htext' : Writes form' text') :
    ((User.Varies form form' -> forall user : User,
          decode text = .ok user <-> decode text' = .ok user) ∧
        (Page.Varies form form' -> forall page : Page User,
          decode text = .ok page <-> decode text' = .ok page) ∧
        (ErrorEnvelope.Varies form form' -> forall envelope : ErrorEnvelope,
          decode text = .ok envelope <-> decode text' = .ok envelope)) ∧
      (User.Repeats form -> exists e, (decode text : Except Json.Error User) = .error e) ∧
      (Page.Repeats form -> exists e, (decode text : Except Json.Error (Page User)) = .error e) ∧
      (ErrorEnvelope.Repeats form ->
        (exists e, (decode text : Except Json.Error ErrorEnvelope) = .error e) ∧
          forall status, ApiError.reasons status text = [ApiError.fallback status]) := by
  refine ⟨⟨?_, ?_, ?_⟩, ?_, ?_, ?_⟩
  · intro hvaries
    exact User.tolerates.decodeWith_iff htext htext' hvaries
  · intro hvaries
    exact Page.tolerates.decodeWith_iff htext htext' hvaries
  · intro hvaries
    exact ErrorEnvelope.tolerates.decodeWith_iff htext htext' hvaries
  · intro hrepeats
    exact User.tolerates.exists_decodeWith_error htext hrepeats
  · intro hrepeats
    exact Page.tolerates.exists_decodeWith_error htext hrepeats
  · intro hrepeats
    have herror : exists e, (decode text : Except Json.Error ErrorEnvelope) = .error e :=
      ErrorEnvelope.tolerates.exists_decodeWith_error htext hrepeats
    refine ⟨herror, ?_⟩
    intro status
    rcases herror with ⟨e, he⟩
    unfold ApiError.reasons
    rw [he]

namespace Sample

open Json.Reader (byte)

def key (name : String) (h : forall b, b ∈ name.toList.map byte -> IsPlain b) : Key :=
  ⟨name.toList.map byte, isContent_of_isPlain h⟩

def quoted (key : Key) : Form := .scalar ⟨_, .string key.isContent⟩

def user : User := ⟨"ada", "a@b", true, [], false, none, none, none⟩

def userMembers : List (Key × Form) :=
  [(key "username" (by decide +kernel), quoted (key "ada" (by decide +kernel))),
    (key "email" (by decide +kernel), quoted (key "a@b" (by decide +kernel))),
    (key "restricted" (by decide +kernel), .scalar ⟨_, .true⟩)]

/-- Half of a pair, which no string has, inside a list. -/
def newMember : Key × Form :=
  (key "extra" (by decide +kernel),
    .list [.object [], .scalar ⟨_, .string (@IsContent.unit (byte 'D') (byte '8') (byte '0')
      (byte '0') [] (by decide +kernel) .nil)⟩])

def emptyErrors : Key × Form := (key "errors" (by decide +kernel), .list [])

theorem newMember_isUndeclared : Fields.IsUndeclared User.record.fields.names newMember :=
  ⟨"extra", by decide +kernel, by decide⟩

theorem user_varies :
    User.Varies (.object userMembers) (.object (newMember :: userMembers)) := by
  refine .inr (@ObjectVaries.mk _ _ _ userMembers [newMember] _ ?_ ?_ ?_)
  · exact List.forall₂_same.mpr fun m _ => ⟨rfl, .inl rfl⟩
  · intro m hm
    rw [List.mem_singleton.mp hm]
    exact newMember_isUndeclared
  · exact List.perm_append_singleton newMember userMembers

theorem errors_repeat : ErrorEnvelope.Repeats (.object [emptyErrors, emptyErrors]) := by
  have hname : emptyErrors.1.name? = some "errors" := by decide +kernel
  exact .here List.mem_cons_self (.mk (List.Sublist.refl _) hname hname)

theorem new_member_is_ignored :
    decode (Form.text (.object userMembers)) = .ok user ∧
      decode (Form.text (.object (newMember :: userMembers))) = .ok user ∧
      ApiError.reasons done.status (Form.text (.object [emptyErrors, emptyErrors])) =
        [ApiError.fallback done.status] := by
  have huser : decode (Form.text (.object userMembers)) = .ok user := by decide +kernel
  have hwrites := writes_text (.object userMembers)
  have hwrites' := writes_text (.object (newMember :: userMembers))
  have herrors := writes_text (.object [emptyErrors, emptyErrors])
  refine ⟨huser, ?_, ?_⟩
  · exact ((decoding_ignores_new_members_only hwrites hwrites').1.1 user_varies user).mp huser
  · exact ((decoding_ignores_new_members_only herrors herrors).2.2.2 errors_repeat).2 done.status

end Sample
end RestClient
