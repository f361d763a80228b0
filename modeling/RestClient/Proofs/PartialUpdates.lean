import RestClient.Proofs.Creation
import RestClient.Proofs.ReadingBack
import RestClient.Proofs.Sending

/-!
# Partial updates

An update of a user names the fields that it changes.  What is sent is an object of exactly these,
and a server that puts its members in the place of the user's own changes nothing else.
-/

namespace RestClient
namespace Json

/-!
## Merging
-/

/-- The object with the members of the patch in the place of its own of the same keys; members of
other keys come last. -/
def merge (base patch : Json) : Json :=
  match base, patch with
  | .object members, .object changes =>
    .object (members.map (fun m => (m.1, (patch.member? m.1).getD m.2)) ++
      changes.filter fun change => (base.member? change.1).isNone)
  | _, _ => patch

theorem member?_object_cons (key name : String) (value : Json) (rest : List (String × Json)) :
    (object ((name, value) :: rest)).member? key =
      if name = key then some value else (object rest).member? key := by
  show (((name, value) :: rest).find? fun m => m.1 == key).map (·.2) = _
  rw [List.find?_cons]
  by_cases hkey : name = key
  · simp [hkey]
  · rw [if_neg hkey]
    simp only [beq_eq_false_iff_ne.mpr hkey]
    rfl

theorem member?_insertMember (key name : String) (value : Json)
    (members : List (String × Json)) :
    (object (insertMember name value members)).member? key =
      if name = key then some value else (object members).member? key := by
  induction members with
  | nil => exact member?_object_cons key name value []
  | cons m members ih =>
    rcases m with ⟨other, old⟩
    unfold insertMember
    by_cases hlt : name < other
    · rw [if_pos hlt, member?_object_cons]
    rw [if_neg hlt]
    by_cases heq : name = other
    · rw [if_pos heq, member?_object_cons, member?_object_cons, heq]
      by_cases hkey : other = key
      · rw [if_pos hkey, if_pos hkey]
      · rw [if_neg hkey, if_neg hkey, if_neg hkey]
    · rw [if_neg heq, member?_object_cons, ih, member?_object_cons]
      by_cases hkey : name = key
      · rw [if_neg fun hother => heq (hkey.trans hother.symm), if_pos hkey, if_pos hkey]
      · rw [if_neg hkey, if_neg hkey]

theorem mem_insertMember {name : String} {value : Json} {members : List (String × Json)}
    {m : String × Json} (h : m ∈ insertMember name value members) :
    m = (name, value) ∨ m ∈ members := by
  induction members with
  | nil => exact .inl (List.mem_singleton.mp h)
  | cons other members ih =>
    unfold insertMember at h
    split_ifs at h with hlt heq
    · exact List.mem_cons.mp h
    · exact (List.mem_cons.mp h).imp_right (List.mem_cons_of_mem other)
    · rcases List.mem_cons.mp h with rfl | h
      · exact .inr List.mem_cons_self
      · exact (ih h).imp_right (List.mem_cons_of_mem other)

def placeAll (placed members : List (String × Json)) : List (String × Json) :=
  members.foldl (fun sorted m => insertMember m.1 m.2 sorted) placed

theorem mem_placeAll {placed members : List (String × Json)} {m : String × Json}
    (h : m ∈ placeAll placed members) : m ∈ members ∨ m ∈ placed := by
  induction members generalizing placed with
  | nil => exact .inr h
  | cons other members ih =>
    rcases ih h with hmember | hplaced
    · exact .inl (List.mem_cons_of_mem other hmember)
    · exact (mem_insertMember hplaced).imp_left fun heq => List.mem_cons.mpr (.inl heq)

theorem placeAll_append (placed members more : List (String × Json)) :
    placeAll placed (members ++ more) = placeAll (placeAll placed members) more :=
  List.foldl_append

theorem member?_placeAll_optionalMember {α : Type} [Encode α] (key name : String)
    (value : Option α) (placed : List (String × Json)) :
    (object (placeAll placed (optionalMember name value))).member? key =
      if name = key then (value.map encode).or ((object placed).member? key)
      else (object placed).member? key := by
  cases value with
  | none => simp [placeAll, optionalMember]
  | some a => exact member?_insertMember key name (encode a) placed

end Json

open Json

namespace User

/-- The keys of a user's object are distinct. -/
theorem nodup_names : record.fields.names.Nodup := by decide

theorem exists_carries (user : User) :
    exists form, Carries record.decoder 2 (encode user) user form := by
  have hkeys : exists form, Carries decoder 1 (encode user.sshKeys) user.sshKeys form :=
    exists_carries_list steady_string fun key _ => ⟨_, carries_string key⟩
  rcases hkeys with ⟨sshKeys, hsshKeys⟩
  rcases exists_carries_optional user.verifiedPhoneNumber with ⟨phone, hphone⟩
  rcases exists_carries_optional user.passwordCreated with ⟨created, hcreated⟩
  rcases exists_carries_optional user.userType with ⟨userType, huserType⟩
  have hcarried : exists forms, record.fields.Carried 1
      (user.username, user.email, user.restricted, user.sshKeys, user.tfaEnabled,
        user.verifiedPhoneNumber, user.passwordCreated, user.userType, ()) _ forms :=
    ⟨_, .cons "username" none ((carries_string user.username).mono (Nat.zero_le 1)) <|
      .cons "email" none ((carries_string user.email).mono (Nat.zero_le 1)) <|
      .cons "restricted" none ((carries_bool user.restricted).mono (Nat.zero_le 1)) <|
      .cons "ssh_keys" (some []) hsshKeys <|
      .cons "tfa_enabled" (some false) ((carries_bool user.tfaEnabled).mono (Nat.zero_le 1)) <|
      .cons "verified_phone_number" (some none) (hphone.mono (Nat.zero_le 1)) <|
      .cons "password_created" (some none) (hcreated.mono (Nat.zero_le 1)) <|
      .cons "user_type" (some none) (huserType.mono (Nat.zero_le 1)) .nil⟩
  rcases hcarried with ⟨forms, hforms⟩
  exact ⟨_, Record.carries areSteady nodup_names hforms⟩

theorem decode_encode (user : User) : decode (encode user).toBytes = .ok user := by
  rcases user.exists_carries with ⟨form, hform⟩
  exact hform.decodeWith_eq (Record.steady areSteady) (by decide)

end User

namespace UserUpdateOptions

def fields (o : UserUpdateOptions) : List String :=
  (o.username.map fun _ => "username").toList ++ (o.email.map fun _ => "email").toList ++
    (o.restricted.map fun _ => "restricted").toList

def appliedTo (o : UserUpdateOptions) (user : User) : User :=
  { user with
    username := o.username.getD user.username
    email := o.email.getD user.email
    restricted := o.restricted.getD user.restricted }

def members (o : UserUpdateOptions) : List (String × Json) :=
  optionalMember "username" o.username ++ optionalMember "email" o.email ++
    optionalMember "restricted" o.restricted

/-- The text is an object of exactly the given fields, and it changes exactly these of any user. -/
structure IsWrittenIn (o : UserUpdateOptions) (body : List UInt8) : Prop where
  isObject : exists members : List (Key × Form), Writes (.object members) body ∧
    members.map (·.1.name?) = o.fields.map some
  applies : exists patch : Json, decode body = .ok patch ∧
    forall user : User, decode ((encode user).merge patch).toBytes = .ok (o.appliedTo user)

theorem exists_carriesMember {α : Type} [Encode α] (name : String) (value : Option α)
    (h : forall a : α, exists form, Carries any 0 (encode a) (encode a) form) :
    exists forms, List.Forall₂ (CarriesMember 0) (optionalMember name value) forms := by
  cases value with
  | none => exact ⟨[], .nil⟩
  | some a =>
    rcases h a with ⟨form, hform⟩
    exact ⟨[(writtenKey name, form)], .cons ⟨rfl, hform⟩ .nil⟩

theorem exists_forms (o : UserUpdateOptions) :
    exists forms, List.Forall₂ (CarriesMember 0) o.members forms := by
  have hstring : forall text : String,
      exists form, Carries any 0 (encode text) (encode text) form :=
    fun text => ⟨_, carries_any_string text⟩
  have hbool : forall b : Bool, exists form, Carries any 0 (encode b) (encode b) form :=
    fun b => ⟨_, carries_any_bool b⟩
  rcases exists_carriesMember "username" o.username hstring with ⟨username, husername⟩
  rcases exists_carriesMember "email" o.email hstring with ⟨email, hemail⟩
  rcases exists_carriesMember "restricted" o.restricted hbool with ⟨restricted, hrestricted⟩
  exact ⟨_, List.rel_append (List.rel_append husername hemail) hrestricted⟩

theorem map_fst_optionalMember {α : Type} [Encode α] (name : String) (value : Option α) :
    (optionalMember name value).map (·.1) = (value.map fun _ => name).toList := by
  cases value <;> rfl

theorem map_fst_members (o : UserUpdateOptions) : o.members.map (·.1) = o.fields := by
  unfold members fields
  rw [List.map_append, List.map_append, map_fst_optionalMember, map_fst_optionalMember,
    map_fst_optionalMember]

theorem map_name?_of_carriesMember {depth : Nat} {members : List (String × Json)}
    {forms : List (Key × Form)} (h : List.Forall₂ (CarriesMember depth) members forms) :
    forms.map (·.1.name?) = (members.map (·.1)).map some := by
  induction h with
  | nil => rfl
  | cons hmember h ih =>
    rw [List.map_cons, hmember.1, name?_writtenKey, ih]
    rfl

theorem member?_patch (o : UserUpdateOptions) (key : String) :
    (ofMembers o.members).member? key =
      if key = "username" then o.username.map encode
      else if key = "email" then o.email.map encode
      else if key = "restricted" then o.restricted.map encode
      else none := by
  show (object (placeAll [] o.members)).member? key = _
  unfold members
  rw [placeAll_append, placeAll_append, member?_placeAll_optionalMember,
    member?_placeAll_optionalMember, member?_placeAll_optionalMember]
  by_cases husername : key = "username"
  · subst husername
    simp [member?]
  by_cases hemail : key = "email"
  · subst hemail
    simp [member?]
  by_cases hrestricted : key = "restricted"
  · subst hrestricted
    simp [member?]
  · rw [if_neg (Ne.symm hrestricted), if_neg (Ne.symm hemail), if_neg (Ne.symm husername),
      if_neg husername, if_neg hemail, if_neg hrestricted]
    rfl

theorem isSome_member?_of_mem {o : UserUpdateOptions} {m : String × Json}
    (h : m ∈ placeAll [] o.members) (user : User) :
    ((encode user).member? m.1).isSome = true := by
  have hmem : m ∈ o.members := (mem_placeAll h).resolve_right List.not_mem_nil
  have hfield : m.1 ∈ o.fields := o.map_fst_members ▸ List.mem_map_of_mem hmem
  unfold fields at hfield
  simp only [List.mem_append, Option.mem_toList, Option.map_eq_some_iff] at hfield
  rcases hfield with (⟨_, _, hname⟩ | ⟨_, _, hname⟩) | ⟨_, _, hname⟩ <;> rw [← hname] <;> rfl

theorem merge_members (o : UserUpdateOptions) (user : User) :
    (encode user).merge (ofMembers o.members) = encode (o.appliedTo user) := by
  have hnew : (placeAll [] o.members).filter
      (fun change => ((encode user).member? change.1).isNone) = [] := by
    rw [List.filter_eq_nil_iff]
    intro m hm
    rw [Option.isNone_eq_false_iff.mpr (isSome_member?_of_mem hm user)]
    exact Bool.false_ne_true
  show object (_ ++ (placeAll [] o.members).filter _) = _
  rw [hnew, List.append_nil]
  simp [encode, member?_patch, appliedTo, Option.getD_map]

theorem isWrittenIn_toBytes (o : UserUpdateOptions) : o.IsWrittenIn (encode o).toBytes := by
  rcases o.exists_forms with ⟨forms, hforms⟩
  have hcarries := carries_any_object hforms
  refine ⟨⟨forms, hcarries.writes, ?_⟩, ofMembers o.members, ?_, ?_⟩
  · rw [map_name?_of_carriesMember hforms, map_fst_members]
  · exact hcarries.decodeWith_eq steady_any (by decide)
  · intro user
    rw [merge_members]
    exact User.decode_encode _

end UserUpdateOptions

variable {σ α Create Update : Type} [Transport σ] [Json.Decode α]

theorem Client.body_of_prepare {client : Client} {request : Request} {payload : Payload}
    {prepared : HttpRequest} (h : client.prepare request (some payload) = .ok prepared) :
    exists bytes, payload.bytes = .ok bytes ∧ prepared.body = some bytes := by
  unfold Client.prepare at h
  cases hurl : request.url client.root with
  | error e =>
    rw [hurl] at h
    cases h
  | ok url =>
    rw [hurl] at h
    dsimp only at h
    cases hbytes : payload.bytes with
    | error e =>
      rw [hbytes] at h
      cases h
    | ok bytes =>
      rw [hbytes] at h
      cases h
      exact ⟨bytes, rfl, rfl⟩

namespace Collection

theorem exists_requests_update (c : Collection Create Update) (id : String) (options : Update)
    (w : World σ) :
    exists sent, (c.update id options w : Except Halt α × World σ).2.requests =
        w.requests ++ sent ∧
      forall request, request ∈ sent ->
        exists body, (c.resource.updateBody options).bytes = .ok body ∧
        request.body = some body := by
  unfold update
  cases c.itemRequest .put id with
  | error e => exact ⟨[], (List.append_nil _).symm, by simp⟩
  | ok request =>
    dsimp only
    rw [world_data]
    rcases c.client.exists_requests_call (α := α) request
      (some (c.resource.updateBody options)) w with ⟨sent, hsent, hall⟩
    exact ⟨sent, hsent, fun prepared hprepared => Client.body_of_prepare (hall prepared hprepared)⟩

/-- Every request of an update is an object of exactly the given fields, which changes these of
any user and leaves the others as they are. -/
theorem update_touches_given_fields_only (client : Client) (params : List (String × String))
    (id : String) (options : UserUpdateOptions) (w : World σ) :
    (exists sent,
      (update ⟨users, client, params⟩ id options w : Except Halt α × World σ).2.requests =
        w.requests ++ sent ∧
      forall request, request ∈ sent ->
        exists body, request.body = some body ∧ options.IsWrittenIn body) ∧
    (forall u v : User, u.updateOptions.appliedTo v =
      { v with username := u.username, email := u.email, restricted := u.restricted }) ∧
    forall v : User, UserUpdateOptions.default.appliedTo v = v := by
  refine ⟨?_, fun _ _ => rfl, fun _ => rfl⟩
  rcases exists_requests_update (α := α) ⟨users, client, params⟩ id options w with
    ⟨sent, hsent, hall⟩
  refine ⟨sent, hsent, ?_⟩
  intro request hrequest
  rcases hall request hrequest with ⟨body, hbody, hrequestBody⟩
  cases hbody
  exact ⟨_, hrequestBody, options.isWrittenIn_toBytes⟩

end Collection

namespace Sample

def address : UserUpdateOptions := ⟨none, some "a\"b", none⟩

def addressed : World Script :=
  (Collection.update ⟨users, client, []⟩ "ada" address (world [reply 3 (some (.ok done))]) :
    Except Halt User × World Script).2

theorem new_address_is_sent_alone :
    exists request, request ∈ addressed.requests ∧ exists body, request.body = some body ∧
      address.IsWrittenIn body := by
  have hlength : addressed.requests.length = 1 := by decide +kernel
  rcases (Collection.update_touches_given_fields_only (α := User) client [] "ada" address
    (world [reply 3 (some (.ok done))])).1 with ⟨sent, hsent, hall⟩
  have hrequests : addressed.requests = sent := hsent
  rcases List.length_eq_one_iff.mp (hrequests ▸ hlength) with ⟨request, rfl⟩
  have hmem : request ∈ addressed.requests := hrequests ▸ List.mem_cons_self
  exact ⟨request, hmem, hall request List.mem_cons_self⟩

end Sample
end RestClient
