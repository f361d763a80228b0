import Mathlib.Data.List.TakeWhile
import RestClient.Proofs.Coding
import RestClient.Proofs.ReadingBack
import RestClient.Proofs.Supplying
import RestClient.Proofs.UnderWay
import RestClient.Sample

/-!
# Bodies of successful responses

What a call makes of the body of a 2xx response.  A blank body is null, and any other one is
decoded strictly, but as the text that is left of it when every ill-formed piece has been replaced:
only a body that is UTF-8 is decoded as it was sent.
-/

namespace RestClient

/-!
## Replacement
-/

namespace Utf8

/-- The bytes with a replacement character in the place of each ill-formed piece. -/
def mended (bytes : List UInt8) : List UInt8 := encode (decodeLossy bytes)

/-- Only bytes that are UTF-8 stay as they are. -/
theorem mended_eq_self_iff {bytes : List UInt8} :
    mended bytes = bytes <-> exists text, bytes = encode text := by
  constructor
  · intro h
    exact ⟨decodeLossy bytes, h.symm⟩
  · rintro ⟨text, rfl⟩
    exact congrArg encode (decodeLossy_encode text)

end Utf8

/-!
## Blank bodies
-/

def IsBlankText (bytes : List UInt8) : Prop :=
  exists text : List Char, bytes = Utf8.encode text ∧ forall c, c ∈ text -> Blank.isBlank c = true

theorem Blank.isEmpty_trim_iff {text : List Char} :
    (trim text).isEmpty = true <-> forall c, c ∈ text -> isBlank c = true := by
  unfold trim
  rw [List.isEmpty_iff, List.reverse_eq_nil_iff, List.dropWhile_eq_nil_iff]
  cases hleft : text.dropWhile isBlank with
  | nil => simpa using List.dropWhile_eq_nil_iff.mp hleft
  | cons c rest =>
    have hc : isBlank c = false := by
      have hhead := List.head?_dropWhile_not isBlank text
      rw [hleft] at hhead
      simpa using hhead
    have hmem : c ∈ text := (List.dropWhile_sublist isBlank).mem (hleft ▸ List.mem_cons_self)
    constructor
    · intro h
      rw [h c (by simp)] at hc
      cases hc
    · intro h
      rw [h c hmem] at hc
      cases hc

theorem isBlankText_encode_iff {text : List Char} :
    IsBlankText (Utf8.encode text) <-> (Blank.trim text).isEmpty = true := by
  rw [Blank.isEmpty_trim_iff]
  constructor
  · rintro ⟨other, heq, hblank⟩
    have htexts := congrArg Utf8.decodeLossy heq
    rw [Utf8.decodeLossy_encode, Utf8.decodeLossy_encode] at htexts
    exact htexts ▸ hblank
  · exact fun h => ⟨text, rfl, h⟩

namespace Json

open Reader

variable {α : Type}

/-- A byte that can only stand inside a string. -/
def IsForeign (b : UInt8) : Prop := b = 0x0B ∨ b = 0x0C ∨ 128 ≤ b.toNat

theorem token_of_isForeign {b : UInt8} (h : IsForeign b) (s : List UInt8) :
    exists f, token (b :: s) = .error f := by
  have hne : forall c : UInt8, c.toNat < 128 -> c ≠ 0x0B -> c ≠ 0x0C -> b ≠ c := by
    rintro c hc hb hf rfl
    rcases h with h | h | h
    · exact hb h
    · exact hf h
    · omega
  have hspace : isSpace b = false := by
    unfold isSpace
    simp only [Bool.or_eq_false_iff, beq_eq_false_iff_ne]
    refine ⟨⟨⟨?_, ?_⟩, ?_⟩, ?_⟩ <;> exact hne _ (by decide) (by decide) (by decide)
  have hdigit : isDigit b = false := by
    unfold isDigit
    rcases h with rfl | rfl | h
    · rfl
    · rfl
    · simp only [Bool.and_eq_false_iff, decide_eq_false_iff_not, UInt8.le_iff_toNat_le]
      right
      exact Nat.not_le_of_lt (Nat.lt_of_lt_of_le (by decide) h)
  unfold token
  rw [skipSpace_of_not_isSpace hspace]
  dsimp only
  simp only [beq_iff_eq, hdigit, hne (byte 'n') (by decide) (by decide) (by decide),
    hne (byte 't') (by decide) (by decide) (by decide),
    hne (byte 'f') (by decide) (by decide) (by decide),
    hne (byte '-') (by decide) (by decide) (by decide),
    hne (byte '"') (by decide) (by decide) (by decide),
    hne (byte '[') (by decide) (by decide) (by decide),
    hne (byte '\x7b') (by decide) (by decide) (by decide), Bool.false_eq_true, if_false]
  exact ⟨_, rfl⟩

/-- A blank character is space between values, or no value begins with it. -/
theorem isSpace_or_isForeign {c : Char} (h : Blank.isBlank c = true) :
    (exists b, String.utf8EncodeChar c = [b] ∧ isSpace b = true) ∨
      exists b more, String.utf8EncodeChar c = b :: more ∧ IsForeign b := by
  by_cases hascii : c.toNat < 128
  · have hcases : c.toNat = 9 ∨ c.toNat = 10 ∨ c.toNat = 11 ∨ c.toNat = 12 ∨ c.toNat = 13 ∨
        c.toNat = 32 := by
      unfold Blank.isBlank at h
      simp only [Bool.or_eq_true, Bool.and_eq_true, decide_eq_true_eq, beq_iff_eq] at h
      omega
    rw [Utf8.utf8EncodeChar_of_lt hascii]
    rcases hcases with hn | hn | hn | hn | hn | hn <;> rw [hn]
    · exact .inl ⟨_, rfl, rfl⟩
    · exact .inl ⟨_, rfl, rfl⟩
    · exact .inr ⟨_, _, rfl, .inl rfl⟩
    · exact .inr ⟨_, _, rfl, .inr (.inl rfl)⟩
    · exact .inl ⟨_, rfl, rfl⟩
    · exact .inl ⟨_, rfl, rfl⟩
  · rcases List.exists_cons_of_ne_nil (Utf8.utf8EncodeChar_ne_nil c) with ⟨b, more, hbytes⟩
    have hb : b ∈ String.utf8EncodeChar c := hbytes ▸ List.mem_cons_self
    rcases Utf8.mem_utf8EncodeChar hb with ⟨hlt, _⟩ | ⟨_, hbyte⟩
    · exact absurd hlt hascii
    · exact .inr ⟨b, more, hbytes, .inr (.inr hbyte)⟩

theorem token_of_isBlankText {s : List UInt8} (h : IsBlankText s) :
    exists f, token s = .error f := by
  rcases h with ⟨text, rfl, hblank⟩
  induction text with
  | nil => exact ⟨_, rfl⟩
  | cons c rest ih =>
    have hrest := ih fun d hd => hblank d (List.mem_cons_of_mem c hd)
    show exists f, token (String.utf8EncodeChar c ++ Utf8.encode rest) = .error f
    rcases isSpace_or_isForeign (hblank c List.mem_cons_self) with
      ⟨b, hbytes, hspace⟩ | ⟨b, more, hbytes, hforeign⟩
    · have hpad : Spaces [b] := by simpa [Spaces] using hspace
      rw [hbytes, token_append hpad]
      exact hrest
    · rw [hbytes]
      exact token_of_isForeign hforeign _

/-- The decoder fails where no token can be read. -/
def NeedsToken (decoder : Decoder α) : Prop :=
  forall allowance s f, token s = .error f -> exists f', decoder allowance s = .error f'

theorem needsToken_any : NeedsToken any := by
  intro allowance s f h
  unfold any
  rw [h]
  exact ⟨f, rfl⟩

theorem Record.needsToken {types : List Type} (record : Record types α) :
    NeedsToken record.decoder := by
  intro allowance s f h
  unfold decoder
  rw [h]
  exact ⟨f, rfl⟩

end Json

open Json

variable {σ α : Type} [Json.Decode α]

/-- What a body says by itself: null if it is blank, else what its bytes are strictly decoded
as. -/
def Says (body : List UInt8) (value : α) : Prop :=
  IsBlankText body ∧ decode nullText = .ok value ∨ decode body = .ok value

namespace Client

def decodedBytes (body : List UInt8) : List UInt8 :=
  if (Blank.trim (Utf8.decodeLossy body)).isEmpty then nullText else Utf8.mended body

theorem says_mended_iff (hneeds : NeedsToken (decoder : Decoder α)) (body : List UInt8)
    (value : α) : Says (Utf8.mended body) value <-> decode (decodedBytes body) = .ok value := by
  unfold Says decodedBytes
  by_cases hblank : (Blank.trim (Utf8.decodeLossy body)).isEmpty = true
  · have htext : IsBlankText (Utf8.mended body) := isBlankText_encode_iff.mpr hblank
    have herror : decode (Utf8.mended body) ≠ .ok value := by
      rcases token_of_isBlankText htext with ⟨f, hf⟩
      rcases hneeds nesting _ f hf with ⟨f', hf'⟩
      unfold decode decodeWith
      rw [hf']
      simp
    rw [if_pos hblank]
    exact ⟨fun h => (h.resolve_right herror).2, fun h => .inl ⟨htext, h⟩⟩
  · have htext : ¬ IsBlankText (Utf8.mended body) := fun h => hblank (isBlankText_encode_iff.mp h)
    rw [if_neg hblank]
    exact ⟨fun h => h.resolve_left fun hnull => htext hnull.1, .inr⟩

theorem accept_of_ok {response : HttpResponse} {value : α}
    (h : decode (decodedBytes response.body) = .ok value) (n : Nat) :
    (accept response n : Verdict α).result =
      .ok ⟨value, String.ofList (Utf8.decodeLossy response.body), response.status,
        response.headers, n⟩ := by
  unfold decodedBytes at h
  have hbytes := apply_ite Utf8.encode
    ((Blank.trim (Utf8.decodeLossy response.body)).isEmpty = true) ['n', 'u', 'l', 'l']
    (Utf8.decodeLossy response.body)
  have hdecode := (congrArg (decode (α := α)) hbytes).trans h
  unfold accept
  dsimp only
  rw [hdecode]

theorem accept_of_error {response : HttpResponse} {fault : Json.Error}
    (h : (decode (decodedBytes response.body) : Except Json.Error α) = .error fault) (n : Nat) :
    (accept response n : Verdict α).result =
      .error (.deserializationFailed (String.ofList (Utf8.decodeLossy response.body)) fault.text
        response.status) := by
  unfold decodedBytes at h
  have hbytes := apply_ite Utf8.encode
    ((Blank.trim (Utf8.decodeLossy response.body)).isEmpty = true) ['n', 'u', 'l', 'l']
    (Utf8.decodeLossy response.body)
  have hdecode := (congrArg (decode (α := α)) hbytes).trans h
  unfold accept
  dsimp only
  rw [hdecode]

theorem judge_of_isSuccess {response : HttpResponse} (h : response.status.isSuccess = true)
    (clock : Moment) (n : Nat) :
    (judge clock n (.ok response) : Except Overflow (Verdict α)) = .ok (accept response n) :=
  if_pos h

variable [Transport σ] {client : Client} {request : Request} {body : Option Payload}
  {w : World σ} {response : HttpResponse} {n : Nat}

/-- A 2xx response gives its call the value that the mended body says, and where it says none the
attempt fails with what the decoder finds wrong. -/
structure DecodesBody (α : Type) [Json.Decode α] (client : Client) (request : Request)
    (body : Option Payload) (w : World σ) (response : HttpResponse) (n : Nat) : Prop where
  returns : forall value : α, Says (Utf8.mended response.body) value ->
    exists received w', client.call request body w = (.ok received, w') ∧ received.data = value
  fails : (forall value : α, ¬ Says (Utf8.mended response.body) value) -> exists fault : Json.Error,
    (decode (decodedBytes response.body) : Except Json.Error α) = .error fault ∧
      (client.IsFinal request n (.deserializationFailed
          (String.ofList (Utf8.decodeLossy response.body)) fault.text response.status) ->
        exists w', (client.call request body w : Except Halt (Response α) × World σ) =
          (.error (.failed (.deserializationFailed
            (String.ofList (Utf8.decodeLossy response.body)) fault.text response.status)), w'))

theorem Obtains.of_reply {prepared : HttpRequest}
    (hprepare : client.prepare request body = .ok prepared) (h : w.Undisturbed client.cancel)
    (hlimit : client.timeout.all
      ((Transport.send w.transport prepared).1.wait.ticks ≤ ·.ticks) = true)
    (hdeadline : client.deadline.all
      ((Transport.send w.transport prepared).1.wait.ticks ≤ ·.ticks) = true)
    (hcancels : forall token, token ∈ (Transport.send w.transport prepared).1.cancels ->
      client.cancel ≠ some token)
    (houtcome : (Transport.send w.transport prepared).1.outcome = some (.ok response)) :
    Obtains α client request body w response 1 := by
  rcases exchange_of_reply h rfl hlimit hdeadline hcancels houtcome
    (client.policy request).attempt with ⟨w₁, hexchange, _⟩
  exact .mk hprepare .first hexchange

theorem Obtains.call_of_decode (h : Obtains α client request body w response n)
    (hsuccess : response.status.isSuccess = true) {value : α}
    (hdecode : decode (decodedBytes response.body) = .ok value) :
    exists received w',
      client.call request body w = (.ok received, w') ∧ received.data = value := by
  rcases h.call_of_ok fun clock =>
    ⟨_, judge_of_isSuccess hsuccess clock n, accept_of_ok hdecode n⟩ with ⟨w', hcall⟩
  exact ⟨_, w', hcall, rfl⟩

theorem Obtains.decodesBody (hneeds : NeedsToken (decoder : Decoder α))
    (h : Obtains α client request body w response n)
    (hsuccess : response.status.isSuccess = true) :
    DecodesBody α client request body w response n where
  returns value hvalue :=
    h.call_of_decode hsuccess ((says_mended_iff hneeds response.body value).mp hvalue)
  fails hnone := by
    cases hdecode : (decode (decodedBytes response.body) : Except Json.Error α) with
    | ok value =>
      exact absurd ((says_mended_iff hneeds response.body value).mpr hdecode) (hnone value)
    | error fault =>
      refine ⟨fault, rfl, ?_⟩
      intro hfinal
      have hjudge : forall clock, exists (verdict : Verdict α) (e : Error),
          judge clock n (.ok response) = .ok verdict ∧ verdict.result = .error e ∧
            e = .deserializationFailed (String.ofList (Utf8.decodeLossy response.body)) fault.text
              response.status := fun clock =>
        ⟨_, _, judge_of_isSuccess hsuccess clock n, accept_of_error hdecode n, rfl⟩
      rcases h.call_of_isFinal hjudge fun e he => he ▸ hfinal with ⟨e, w', rfl, hcall⟩
      exact ⟨w', hcall⟩

/-- Users, pages of users and plain values are decoded from a 2xx body as the text that it is when
every ill-formed piece has been replaced.  Nothing is replaced in a body that is UTF-8. -/
theorem success_bodies_are_decoded_as_text (client : Client) (request : Request)
    (body : Option Payload) (w : World σ) (response : HttpResponse) (n : Nat)
    (hsuccess : response.status.isSuccess = true) :
    (Obtains User client request body w response n ->
        DecodesBody User client request body w response n) ∧
      (Obtains (Page User) client request body w response n ->
        DecodesBody (Page User) client request body w response n) ∧
      (Obtains Json client request body w response n ->
        DecodesBody Json client request body w response n) ∧
      ((exists text, response.body = Utf8.encode text) ->
        Utf8.mended response.body = response.body) :=
  ⟨fun h => h.decodesBody User.record.needsToken hsuccess,
    fun h => h.decodesBody Page.userRecord.needsToken hsuccess,
    fun h => h.decodesBody needsToken_any hsuccess, Utf8.mended_eq_self_iff.mpr⟩

end Client

namespace Sample

def accented : HttpResponse := { done with body := [0x22, 0xC3, 0xA9, 0x22] }

def broken : HttpResponse := { done with body := [0x22, 0xFF, 0x22] }

theorem obtains_of_response (response : HttpResponse) :
    Client.Obtains Json client request none (world [reply 3 (some (.ok response))]) response 1 := by
  have hprepare : client.prepare request none = .ok prepared := by decide +kernel
  have hopen : (world [reply 3 (some (.ok response))]).Undisturbed client.cancel :=
    ⟨rfl, by simp [world, World.initial]⟩
  have hintime : client.timeout.all ((Duration.ofMillis 3).ticks ≤ ·.ticks) = true := by
    decide +kernel
  exact .of_reply hprepare hopen hintime rfl (fun _ h => by cases h) rfl

theorem decode_string {body : List UInt8} {text : String}
    (h : body = (encode text : Json).toBytes) : decode body = .ok (Json.string text) := by
  rw [h]
  exact (carries_any_string text).decodeWith_eq steady_any (by decide)

theorem accented_body_is_decoded :
    exists received w', client.call request none (world [reply 3 (some (.ok accented))]) =
      (.ok received, w') ∧ received.data = Json.string "é" := by
  have htext : accented.body = Utf8.encode ['"', 'é', '"'] := by decide +kernel
  rcases Client.success_bodies_are_decoded_as_text client request none
    (world [reply 3 (some (.ok accented))]) accented 1 rfl with ⟨_, _, hjson, hmended⟩
  have hvalue : Says (Utf8.mended accented.body) (Json.string "é") := by
    rw [hmended ⟨_, htext⟩]
    exact .inr (decode_string (by decide +kernel))
  exact (hjson (obtains_of_response accented)).returns _ hvalue

/-- The byte is read as a character that was not sent. -/
theorem broken_body_is_accepted :
    (exists received w', client.call request none (world [reply 3 (some (.ok broken))]) =
        (.ok received, w') ∧ received.data = Json.string "\uFFFD") ∧
      ¬ Says broken.body (Json.string "\uFFFD") := by
  constructor
  · have hdecode : decode (Client.decodedBytes broken.body) = .ok (Json.string "\uFFFD") :=
      decode_string (by decide +kernel)
    exact (obtains_of_response broken).call_of_decode rfl hdecode
  · rintro (⟨⟨text, htext, _⟩, _⟩ | hdecode)
    · have hmended := Utf8.mended_eq_self_iff.mpr ⟨text, htext⟩
      exact absurd hmended (by decide +kernel)
    · have herror : (decode broken.body : Except Json.Error Json).isOk = false := by
        decide +kernel
      rw [hdecode] at herror
      cases herror

end Sample
end RestClient
