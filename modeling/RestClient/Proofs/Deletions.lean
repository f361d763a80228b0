import RestClient.Proofs.FaultyArguments
import RestClient.Proofs.LastReplies
import RestClient.Proofs.Rejections
import RestClient.Proofs.Segments
import RestClient.Proofs.Skipped
import RestClient.Proofs.SuccessBodies
import RestClient.Users

/-!
# Deletions

A delete reads nothing from the response that confirms it, but the body must be JSON text all the
same, or blank: any other one fails a delete that was carried out.  No delete is confirmed but by a
2xx response, and one of a missing item says that it was not found.
-/

namespace RestClient

variable {σ Create Update : Type} {c : Collection Create Update} {id' : String}

/-!
## Requests for items
-/

theorem Segment.exists_fills {params : List (String × String)} {segments : List Segment}
    (h : forall segment, segment ∈ segments -> exists value, segment.Fills params value) :
    exists values, List.Forall₂ (Segment.Fills params) segments values := by
  induction segments with
  | nil => exact ⟨[], .nil⟩
  | cons segment rest ih =>
    rcases h segment List.mem_cons_self with ⟨value, hvalue⟩
    rcases ih fun other hother => h other (List.mem_cons_of_mem segment hother) with
      ⟨values, hvalues⟩
    exact ⟨value :: values, .cons hvalue hvalues⟩

namespace Collection

/-- The segment stands for the identifier, or it is known what it stands for. -/
inductive Knows (c : Collection Create Update) : Segment -> Prop where
  | id : c.Knows (.placeholder ['i', 'd'])
  | literal {text : List Char} (hplain : forall c, c ∈ text -> Percent.isUnreserved c = true)
      (hproper : Segment.IsProper text) : c.Knows (.literal text)
  | given {name : List Char} {value : String} (hname : '\x7d' ∉ name)
      (hvalue : c.pathParam? (String.ofList name) = some value)
      (hproper : Segment.IsProper value.toList) : c.Knows (.placeholder name)

/-- An identifier is all that the path of an item wants. -/
structure WantsIdentifier (c : Collection Create Update) (segments : List Segment) : Prop where
  nonempty : segments ≠ []
  path : c.resource.itemPath = String.ofList (Segment.template segments)
  knows : forall segment, segment ∈ segments -> c.Knows segment

theorem WantsIdentifier.exists_fills {segments : List Segment} (h : c.WantsIdentifier segments)
    (hid : Segment.IsProper id'.toList) {method : Method} {request : Request}
    (hrequest : c.itemRequest method id' = .ok request) :
    exists values, List.Forall₂ (Segment.Fills request.pathParams) segments values := by
  have hparam := fun name => (get?_itemRequest hrequest name).2
  have hidentifier : forall name, '\x7d' ∉ name -> String.ofList name = "id" ->
      Segment.Fills request.pathParams (.placeholder name) id'.toList := by
    intro name hname heq
    refine .placeholder hname ?_ hid
    rw [hparam, if_pos heq]
  apply Segment.exists_fills
  intro segment hsegment
  cases h.knows segment hsegment with
  | id => exact ⟨_, hidentifier ['i', 'd'] (by decide) rfl⟩
  | literal hplain hproper => exact ⟨_, .literal hplain hproper⟩
  | @given name value hname hvalue hproper =>
    -- The identifier replaces what was given to a placeholder of its name.
    by_cases heq : String.ofList name = "id"
    · exact ⟨_, hidentifier name hname heq⟩
    · refine ⟨_, .placeholder hname ?_ hproper⟩
      rw [hparam, if_neg heq, hvalue]

theorem itemRequest_of_isProper (h : Segment.IsProper id'.toList) (c : Collection Create Update)
    (method : Method) : exists request, c.itemRequest method id' = .ok request ∧
      request.method = method ∧ request.queryParams = [] := by
  have hne : id' ≠ "" := by
    rintro rfl
    exact h.1 rfl
  rcases c.exists_request_eq method c.resource.itemPath with ⟨pathParams, hrequest⟩
  unfold itemRequest
  rw [if_neg hne, hrequest]
  exact ⟨_, rfl, rfl, rfl⟩

theorem WantsIdentifier.exists_prepare {segments : List Segment} (h : c.WantsIdentifier segments)
    (hroot : c.client.root.IsRoot) (hid : Segment.IsProper id'.toList) (method : Method) :
    exists request prepared, c.itemRequest method id' = .ok request ∧
      c.client.prepare request none = .ok prepared ∧ prepared.method = method := by
  rcases itemRequest_of_isProper hid c method with ⟨request, hrequest, rfl, hparams⟩
  rcases h.exists_fills hid hrequest with ⟨values, hfills⟩
  have hpath : request.path = _ := (get?_itemRequest hrequest "id").1.trans h.path
  rcases Request.url_eq_of_fills hroot h.nonempty hpath hparams hfills with ⟨before, _, hurl⟩
  refine ⟨request, ?_⟩
  unfold Client.prepare
  rw [hurl]
  exact ⟨_, hrequest, rfl, rfl⟩

theorem wantsIdentifier_users (client : Client) (pathParams : List (String × String)) :
    WantsIdentifier ⟨users, client, pathParams⟩
      [.literal "account".toList, .literal "users".toList, .placeholder ['i', 'd']] := by
  have hliteral : forall text, text ∈ ["account".toList, "users".toList] ->
      Knows ⟨users, client, pathParams⟩ (.literal text) := by
    intro text htext
    simp only [List.mem_cons, List.not_mem_nil, or_false] at htext
    rcases htext with rfl | rfl
    · exact .literal (List.all_eq_true.mp (by decide)) ⟨by decide, by decide, by decide⟩
    · exact .literal (List.all_eq_true.mp (by decide)) ⟨by decide, by decide, by decide⟩
  have hpath : users.itemPath = String.ofList (Segment.template
      [.literal "account".toList, .literal "users".toList, .placeholder ['i', 'd']]) := by
    decide
  refine ⟨by simp, hpath, ?_⟩
  intro segment hsegment
  simp only [List.mem_cons, List.not_mem_nil, or_false] at hsegment
  rcases hsegment with rfl | rfl | rfl
  · exact hliteral _ (by simp)
  · exact hliteral _ (by simp)
  · exact .id

end Collection

/-!
## Confirmations
-/

def IsJsonOrBlank (body : List UInt8) : Prop :=
  IsBlankText body ∨ exists form, Json.Writes form body

namespace Client

open Json

theorem decode_ignored_decodedBytes_iff (body : List UInt8) :
    decode (decodedBytes body) = .ok (⟨⟩ : Ignored) <-> IsJsonOrBlank (Utf8.mended body) := by
  have hnull : decode nullText = .ok (⟨⟩ : Ignored) := by decide +kernel
  unfold decodedBytes IsJsonOrBlank
  by_cases hblank : (Blank.trim (Utf8.decodeLossy body)).isEmpty = true
  · rw [if_pos hblank]
    exact iff_of_true hnull (.inl (isBlankText_encode_iff.mpr hblank))
  · have htext : ¬ IsBlankText (Utf8.mended body) := fun h => hblank (isBlankText_encode_iff.mp h)
    rw [if_neg hblank, decode_ignored_iff, or_iff_right htext]

theorem value?_of_decode {α : Type} [Json.Decode α] {response : HttpResponse}
    (hsuccess : response.status.isSuccess = true) {value : α}
    (hdecode : decode (decodedBytes response.body) = .ok value) : response.value? = some value := by
  unfold HttpResponse.value?
  rw [if_pos hsuccess, accept_of_ok hdecode 1]

/-- Nothing ends the calls of the client before their replies. -/
structure IsPatient (client : Client) : Prop where
  cancel : client.cancel = none
  timeout : client.timeout = none
  deadline : client.deadline = none

theorem IsPatient.undisturbed {client : Client} (h : client.IsPatient) (w : World σ) :
    w.Undisturbed client.cancel := by
  rw [h.cancel]
  exact ⟨rfl, by simp⟩

theorem IsPatient.awaits {client : Client} (h : client.IsPatient) (reply : Reply) :
    client.timeout.all (reply.wait.ticks ≤ ·.ticks) = true ∧
      client.deadline.all (reply.wait.ticks ≤ ·.ticks) = true ∧
        forall token, token ∈ reply.cancels -> client.cancel ≠ some token := by
  rw [h.cancel, h.timeout, h.deadline]
  exact ⟨rfl, rfl, fun _ _ => by simp⟩

end Client

namespace Collection

open Client (Obtains decodedBytes)

variable [Transport σ] {request : Request} {prepared : HttpRequest} {w w' : World σ}
  {response : HttpResponse}

theorem delete_of_call (hrequest : c.itemRequest .delete id' = .ok request)
    {result : Except Halt (Response Json.Ignored)}
    (hcall : c.client.call request none (w.report (.deleting c.resource.name id')) =
      (result, w')) :
    c.delete id' w = (result.map fun _ => (), w') := by
  unfold delete
  rw [hrequest]
  dsimp only
  rw [hcall]
  cases result with
  | error halt => rfl
  | ok received => rfl

/-- The first reply to a delete confirms it, the request that was sent being the only one, or the
delete fails for what the decoder finds wrong with the body, unless it is tried again.  A body that
is UTF-8 is read as it was sent. -/
structure Confirms (c : Collection Create Update) (id' : String) (prepared : HttpRequest)
    (w : World σ) (response : HttpResponse) : Prop where
  mended : (exists text, response.body = Utf8.encode text) ->
    Utf8.mended response.body = response.body
  confirmed : IsJsonOrBlank (Utf8.mended response.body) -> exists w',
    c.delete id' w = (.ok (), w') ∧ w'.requests = w.requests ++ [prepared]
  unread : ¬ IsJsonOrBlank (Utf8.mended response.body) -> exists fault : Json.Error,
    (Json.decode (decodedBytes response.body) : Except Json.Error Json.Ignored) = .error fault ∧
      ((forall request, c.itemRequest .delete id' = .ok request ->
          c.client.IsFinal request 1 (.deserializationFailed
            (String.ofList (Utf8.decodeLossy response.body)) fault.text response.status)) ->
        exists w', c.delete id' w = (.error (.failed (.deserializationFailed
            (String.ofList (Utf8.decodeLossy response.body)) fault.text response.status)), w') ∧
          w'.requests = w.requests ++ [prepared])

theorem confirms_of_reply (hpatient : c.client.IsPatient)
    (hrequest : c.itemRequest .delete id' = .ok request)
    (hprepare : c.client.prepare request none = .ok prepared)
    (hreply : (Transport.send w.transport prepared).1.outcome = some (.ok response))
    (hsuccess : response.status.isSuccess = true) : c.Confirms id' prepared w response := by
  have hreport := w.sendsNothing_report (.deleting c.resource.name id')
  have hundisturbed := hpatient.undisturbed (w.report (.deleting c.resource.name id'))
  rcases hpatient.awaits (Transport.send w.transport prepared).1 with
    ⟨hintime, hdeadline, hcancels⟩
  refine ⟨Utf8.mended_eq_self_iff.mpr, ?_, ?_⟩
  · intro hbody
    have hdecode := (Client.decode_ignored_decodedBytes_iff response.body).mpr hbody
    rcases Client.call_of_reply hprepare hundisturbed
      ⟨hintime, hdeadline, hcancels, response, hreply, Client.value?_of_decode hsuccess hdecode⟩
      with ⟨received, w', hcall, _, hrequests, _⟩
    refine ⟨w', delete_of_call hrequest hcall, ?_⟩
    rw [hrequests, hreport.requests]
  · intro hbody
    cases hdecode : (Json.decode (decodedBytes response.body) : Except Json.Error Json.Ignored) with
    | ok value => exact absurd ((Client.decode_ignored_decodedBytes_iff _).mp hdecode) hbody
    | error fault =>
      refine ⟨fault, rfl, fun hfinal => ?_⟩
      rcases Client.exchange_of_reply hundisturbed rfl hintime hdeadline hcancels hreply
        (c.client.policy request).attempt with ⟨w₁, hexchange, hrequests, _⟩
      rcases Client.UnderWay.first.call_of_isFinal hprepare hexchange
        (Client.judge_of_isSuccess hsuccess w₁.clock _) (Client.accept_of_error hdecode _)
        (hfinal request hrequest) with ⟨w', hcall, hdrifts⟩
      refine ⟨w', delete_of_call hrequest hcall, ?_⟩
      rw [hdrifts.sendsNothing.requests, hrequests, hreport.requests]

theorem endsInSuccess_delete (h : c.delete id' w = (.ok (), w')) : w.EndsInSuccess w' := by
  cases hrequest : c.itemRequest .delete id' with
  | error e =>
    unfold delete at h
    rw [hrequest] at h
    cases h
  | ok request =>
    rcases hcall : (c.client.call request none (w.report (.deleting c.resource.name id')) :
      Except Halt (Response Json.Ignored) × World σ) with ⟨halt | received, w₁⟩
    · rw [delete_of_call hrequest hcall] at h
      cases h
    · rw [delete_of_call hrequest hcall] at h
      cases h
      have hreport := w.sendsNothing_report (.deleting c.resource.name id')
      exact hreport.endsInSuccess (Client.endsInSuccess_call hcall)

theorem delete_of_missing {n : Nat} (hrequest : c.itemRequest .delete id' = .ok request)
    (hobtains : Obtains Json.Ignored c.client request none
      (w.report (.deleting c.resource.name id')) response n)
    (hmissing : response.status.code = 404)
    (hreset : forall seconds, response.headers.AnnouncesReset seconds -> seconds < 1 <<< 63)
    (hfinal : forall e : Error, e.kind = .notFound -> c.client.IsFinal request n e) :
    exists e w', c.delete id' w = (.error (.failed e), w') ∧ e.kind = .notFound := by
  have hjudge : forall clock, exists (verdict : Client.Verdict Json.Ignored) (e : Error),
      Client.judge clock n (.ok response) = .ok verdict ∧ verdict.result = .error e ∧
        e.kind = .notFound := by
    intro clock
    rcases RateLimit.ofHeaders_cases clock response.headers with
      ⟨⟨info, hinfo⟩, _⟩ | ⟨_, seconds, hseconds, hlate⟩
    · rcases ApiError.reports_of_ofHeaders hinfo with ⟨e, he, hreports⟩
      have hfailed : ¬ response.status.isSuccess = true := by
        unfold Status.isSuccess
        rw [hmissing]
        decide
      refine ⟨Client.reject e n, .api e, ?_, rfl, ?_⟩
      · unfold Client.judge
        dsimp only
        rw [if_neg hfailed, he]
      · exact ApiError.kind_of_missing (hreports.status ▸ hmissing)
    · exact absurd (hreset seconds hseconds) (Nat.not_lt_of_le hlate)
  rcases hobtains.call_of_isFinal hjudge hfinal with ⟨e, w', hkind, hcall⟩
  exact ⟨e, w', delete_of_call hrequest hcall, hkind⟩

/-- A client without token, timeout and deadline takes a 2xx reply to a delete as its success if
the body is JSON text or blank, and as a failure to read it if not.  Whatever the client, a delete
succeeds only with a 2xx reply as the last one, and a missing item is reported as such. -/
theorem delete_succeeds_on_any_json (c : Collection Create Update) (id' : String) :
    (forall {segments : List Segment}, c.client.root.IsRoot -> c.WantsIdentifier segments ->
      Segment.IsProper id'.toList -> c.client.IsPatient ->
      exists prepared : HttpRequest, prepared.method = .delete ∧
        forall (w : World σ) (response : HttpResponse),
          (Transport.send w.transport prepared).1.outcome = some (.ok response) ->
          response.status.isSuccess = true -> c.Confirms id' prepared w response) ∧
      (forall w w' : World σ, c.delete id' w = (.ok (), w') -> w.EndsInSuccess w') ∧
      forall (w : World σ) (request : Request) (response : HttpResponse) (n : Nat),
        c.itemRequest .delete id' = .ok request ->
        Obtains Json.Ignored c.client request none (w.report (.deleting c.resource.name id'))
          response n ->
        response.status.code = 404 ->
        (forall seconds, response.headers.AnnouncesReset seconds -> seconds < 1 <<< 63) ->
        (forall e : Error, e.kind = .notFound -> c.client.IsFinal request n e) ->
        exists e w', c.delete id' w = (.error (.failed e), w') ∧ e.kind = .notFound := by
  refine ⟨?_, fun _ _ => endsInSuccess_delete, ?_⟩
  · intro segments hroot hwants hid hpatient
    rcases hwants.exists_prepare hroot hid .delete with
      ⟨request, prepared, hrequest, hprepare, hmethod⟩
    refine ⟨prepared, hmethod, fun w response hreply hsuccess => ?_⟩
    exact confirms_of_reply hpatient hrequest hprepare hreply hsuccess
  · intro w request response n hrequest hobtains hmissing hreset hfinal
    exact delete_of_missing hrequest hobtains hmissing hreset hfinal

end Collection

namespace Sample

def patientUsers : Collection UserCreateOptions UserUpdateOptions :=
  .of { client with timeout := none } users

def gone : HttpResponse := { done with body := [0x67, 0x6F, 0x6E, 0x65] }

theorem isPatient_patientUsers : patientUsers.client.IsPatient := ⟨rfl, rfl, rfl⟩

def missing : HttpResponse := ⟨⟨404, by decide, by decide⟩, .empty, []⟩

/-- An empty body confirms a delete, and the next delete is told that the item is missing. -/
theorem delete_is_confirmed_once :
    (exists w', patientUsers.delete "ada" (world [reply 3 (some (.ok done))]) = (.ok (), w') ∧
        w'.requests.length = 1 ∧ (world [reply 3 (some (.ok done))]).EndsInSuccess w') ∧
      exists e w', patientUsers.delete "ada" (world [reply 3 (some (.ok missing))]) =
        (.error (.failed e), w') ∧ e.kind = .notFound := by
  have hroot : patientUsers.client.root.IsRoot := ⟨Or.inl rfl, rfl, [], rfl⟩
  have hid : Segment.IsProper "ada".toList := ⟨by decide, by decide, by decide⟩
  rcases Collection.delete_succeeds_on_any_json (σ := Script) patientUsers "ada" with
    ⟨hconfirms, hends, hmissing⟩
  constructor
  · rcases hconfirms hroot (Collection.wantsIdentifier_users _ _) hid
      isPatient_patientUsers with ⟨prepared, _, hreplies⟩
    have hblank : IsJsonOrBlank (Utf8.mended done.body) :=
      Or.inl ⟨[], by decide +kernel, by simp⟩
    rcases (hreplies (world [reply 3 (some (.ok done))]) done rfl rfl).confirmed hblank with
      ⟨w', hdelete, hrequests⟩
    refine ⟨w', hdelete, ?_, hends _ w' hdelete⟩
    rw [hrequests]
    rfl
  · have hwants := Collection.wantsIdentifier_users patientUsers.client patientUsers.pathParams
    rcases hwants.exists_prepare hroot hid .delete with
      ⟨request, prepared, hrequest, hprepare, _⟩
    have hundisturbed := isPatient_patientUsers.undisturbed
      ((world [reply 3 (some (.ok missing))]).report (.deleting patientUsers.resource.name "ada"))
    rcases isPatient_patientUsers.awaits (reply 3 (some (.ok missing))) with
      ⟨hintime, hdeadline, hcancels⟩
    refine hmissing (world [reply 3 (some (.ok missing))]) request missing 1 hrequest
      (.of_reply hprepare hundisturbed hintime hdeadline hcancels rfl) rfl ?_ ?_
    · intro seconds hseconds
      have hnone : Header.resets.findSome? (RateLimit.word? missing.headers) = none := by
        decide +kernel
      rw [RateLimit.announcesReset_iff.mpr hseconds] at hnone
      cases hnone
    · intro e hkind
      refine Or.inr (Or.inl ?_)
      show e.isRetryable = false
      unfold Error.isRetryable
      rw [hkind]
      rfl

/-- The delete was carried out, but fails for the text that says so. -/
theorem text_fails_a_delete :
    gone.status.isSuccess = true ∧
      ¬ exists w', patientUsers.delete "ada" (world [reply 3 (some (.ok gone))]) =
        (.ok (), w') := by
  refine ⟨rfl, ?_⟩
  rintro ⟨w', hdelete⟩
  have hfails : (patientUsers.delete "ada" (world [reply 3 (some (.ok gone))])).1.isOk = false := by
    decide +kernel
  rw [hdelete] at hfails
  cases hfails

end Sample
end RestClient
