import RestClient.Proofs.Retrying
import RestClient.Resource
import Mathlib.Data.List.Basic

/-!
# Servers

Calls to a server that answers at once, and the requests by which a listing asks such a server for
its pages.
-/

namespace RestClient

variable {α : Type}

/-!
## Answers
-/

def HttpResponse.value? [Json.Decode α] (response : HttpResponse) : Option α :=
  if response.status.isSuccess then
    match (Client.accept response 1 : Client.Verdict α).result with
    | .ok received => some received.data
    | .error _ => none
  else none

namespace Client

variable {σ : Type} {client : Client} {request : Request} {prepared : HttpRequest}
  {response : HttpResponse} {value : α}

theorem judge_of_value? [Json.Decode α] (h : response.value? = some value) (clock : Moment)
    (n : Nat) :
    exists verdict received, judge clock n (.ok response) = .ok verdict ∧
      verdict.result = .ok received ∧ received.data = value ∧ received.attempts = n := by
  unfold HttpResponse.value? at h
  by_cases hsuccess : response.status.isSuccess = true
  · rw [if_pos hsuccess] at h
    refine ⟨accept response n, ?_⟩
    unfold judge
    unfold accept at h ⊢
    dsimp only at h ⊢
    cases hdecode : (Json.decode _ : Except Json.Error α) with
    | error e =>
      rw [hdecode] at h
      cases h
    | ok data =>
      rw [hdecode] at h
      cases h
      exact ⟨_, if_pos hsuccess, rfl, rfl, rfl⟩
  · rw [if_neg hsuccess] at h
    cases h

theorem receive_at_once {reply : Reply} {outcome : Except TransportFault HttpResponse}
    (hwait : reply.wait = .zero) (hcancels : reply.cancels = none)
    (houtcome : reply.outcome = some outcome) (client : Client) (horizon : Option Nat)
    (w : World σ) : client.receive horizon reply w = (.ok outcome, w) := by
  have hnow : w.now + reply.wait.ticks = w.now := by
    rw [hwait]
    rfl
  have hlimit : (client.limit w).all (w.now ≤ ·) = true := by
    unfold limit
    cases client.timeout with
    | none => rfl
    | some timeout => simp
  have hreached : client.wait horizon (some w.now) w = (.ok (), w) := by
    unfold wait World.wait
    rw [if_pos (by simp)]
  unfold receive
  dsimp only
  rw [hnow, if_pos hlimit, hreached]
  unfold deliver World.arrive
  rw [hcancels, houtcome]

theorem call_of_exchange [Transport σ] [Json.Decode α] {body : Option Payload}
    (hprepare : client.prepare request body = .ok prepared) {w w₁ : World σ}
    (hexchange : client.exchange (client.horizon w) prepared (client.policy request).attempt w =
      (.ok (.ok response), w₁)) (hvalue : response.value? = some value) :
    exists (received : Response α) (events : List Event),
      client.call request body w = (.ok received, w₁.reportAll events) ∧ received.data = value ∧
        World.Drifts w₁ (w₁.reportAll events) := by
  rcases judge_of_value? hvalue w₁.clock (client.policy request).attempt with
    ⟨verdict, received, hjudge, hresult, hdata, _⟩
  have hattempt := attempt_of_verdict hexchange hjudge request.path
  unfold conclude at hattempt
  rw [hresult] at hattempt
  rcases client.strategy.attemptLimit_eq_succ with ⟨retries, hlimit⟩
  refine ⟨received, verdict.events, ?_, hdata, drifts_verdict hjudge w₁⟩
  apply call_of_callUntil _ (by simp)
  rw [callUntil_of_ok hprepare, hlimit]
  unfold attempts
  rw [hattempt]

theorem call_of_answer [Json.Decode α] {body : Option Payload}
    (hprepare : client.prepare request body = .ok prepared) {w : World Server}
    (hopen : w.isCanceled client.cancel = false)
    (hanswer : w.transport.answer prepared = .ok response) (hvalue : response.value? = some value) :
    exists (received : Response α) (w' : World Server),
      client.call request body w = (.ok received, w') ∧ received.data = value ∧
        w'.requests = w.requests ++ [prepared] ∧ w'.transport = w.transport ∧
        w'.isCanceled client.cancel = false := by
  let sent := ((w.report (.executing prepared.method prepared.url
    (client.policy request).attempt)).send prepared).2
  have hexchange : client.exchange (client.horizon w) prepared (client.policy request).attempt w =
      (.ok (.ok response), sent) := by
    rw [exchange_of_open hopen]
    exact receive_at_once rfl rfl (congrArg some hanswer) client _ _
  rcases call_of_exchange hprepare hexchange hvalue with
    ⟨received, events, hcall, hdata, hdrifts⟩
  have hexecuting := (World.drifts_report w (.executing prepared.method prepared.url
    (client.policy request).attempt) (by simp [Event.failure?])).sameTraffic
  refine ⟨received, sent.reportAll events, hcall, hdata, ?_, rfl, hopen⟩
  rw [hdrifts.sameTraffic.requests, World.requests_send, hexecuting.requests]

theorem url_of_prepare {body : Option Payload} (h : client.prepare request body = .ok prepared) :
    request.url client.root = .ok prepared.url := by
  unfold prepare at h
  cases hurl : request.url client.root with
  | error e =>
    rw [hurl] at h
    cases h
  | ok url =>
    rw [hurl] at h
    cases body with
    | none =>
      cases h
      rfl
    | some payload =>
      dsimp only at h
      cases hbytes : payload.bytes with
      | error e =>
        rw [hbytes] at h
        cases h
      | ok bytes =>
        rw [hbytes] at h
        cases h
        rfl

end Client

/-!
## Requests for pages
-/

def pageParameters (page size : UInt32) : List Char :=
  "page=".toList ++ Nat.toDigits 10 page.toNat ++ "&page_size=".toList ++
    Nat.toDigits 10 size.toNat

/-- The query of the request ends with the parameters of this page. -/
def HttpRequest.AsksFor (request : HttpRequest) (page size : UInt32) : Prop :=
  exists before, (before = [] ∨ before.getLast? = some '&') ∧
    request.url.query = some (before ++ pageParameters page size)

theorem encodeForm_eq_self {text : List Char}
    (h : forall c, c ∈ text -> Percent.isFormChar c = true) :
    Percent.encodeForm text = text := by
  unfold Percent.encodeForm
  induction text with
  | nil => rfl
  | cons c rest ih =>
    have hform := h c List.mem_cons_self
    have hspace : ¬ (c == ' ') = true := by
      intro heq
      rw [beq_iff_eq.mp heq] at hform
      revert hform
      decide
    rw [List.flatMap_cons, ih fun d hd => h d (List.mem_cons_of_mem c hd)]
    unfold Percent.encodeFormChar Percent.encodeChar
    rw [if_neg hspace, if_pos hform]
    rfl

theorem encodeForm_toString (n : Nat) :
    Percent.encodeForm (toString n).toList = Nat.toDigits 10 n := by
  have hdigits : (toString n).toList = Nat.toDigits 10 n := String.toList_ofList
  rw [hdigits]
  apply encodeForm_eq_self
  intro c hc
  have hdigit := Nat.isDigit_of_mem_toDigits (by decide) (by decide) hc
  unfold Percent.isFormChar Char.isAlphanum
  rw [hdigit]
  simp

theorem pairText_toString {name : String}
    (hname : forall c, c ∈ name.toList -> Percent.isFormChar c = true) (n : Nat) :
    Url.pairText (name, toString n) = name.toList ++ '=' :: Nat.toDigits 10 n := by
  unfold Url.pairText
  rw [encodeForm_toString, encodeForm_eq_self hname]

theorem pageParameters_eq (page size : UInt32) :
    pageParameters page size = List.intercalate ['&']
      ["page".toList ++ '=' :: Nat.toDigits 10 page.toNat,
        "page_size".toList ++ '=' :: Nat.toDigits 10 size.toNat] := by
  have hpage : "page=".toList = "page".toList ++ ['='] := by decide
  have hsize : "&page_size=".toList = '&' :: ("page_size".toList ++ ['=']) := by decide
  unfold pageParameters
  rw [hpage, hsize, List.intercalate_cons_cons, List.intercalate_singleton]
  simp only [List.append_assoc, List.cons_append, List.nil_append]

theorem asksFor_addPairs {url : Url} {page size : UInt32} {request : HttpRequest}
    (h : request.url = url.addPairs
      [("page", toString page.toNat), ("page_size", toString size.toNat)]) :
    request.AsksFor page size := by
  have hpairs : [("page", toString page.toNat), ("page_size", toString size.toNat)].map
      Url.pairText = ["page".toList ++ '=' :: Nat.toDigits 10 page.toNat,
        "page_size".toList ++ '=' :: Nat.toDigits 10 size.toNat] := by
    rw [List.map_cons, List.map_cons, List.map_nil,
      pairText_toString (List.all_eq_true.mp (by decide)),
      pairText_toString (List.all_eq_true.mp (by decide))]
  unfold HttpRequest.AsksFor
  rw [h]
  unfold Url.addPairs
  dsimp only
  rw [hpairs]
  rw [pageParameters_eq]
  rcases url.query with _ | _ | ⟨c, rest⟩
  · exact ⟨[], Or.inl rfl, rfl⟩
  · exact ⟨[], Or.inl rfl, rfl⟩
  · refine ⟨(c :: rest) ++ ['&'], Or.inr List.getLast?_concat, ?_⟩
    dsimp only
    rw [List.singleton_append, List.intercalate_cons_cons]

namespace Request

variable {request : Request}

theorem queryParams_forPage (hquery : request.queryParams = []) (page size : UInt32) :
    (request.forPage page size).queryParams =
      [("page", toString page.toNat), ("page_size", toString size.toNat)] := by
  have hname : decide ("page" ≠ "page_size") = true := by decide
  unfold forPage withQueryParam Assoc.set
  rw [hquery, List.filter_nil, List.nil_append, List.filter_singleton, hname]
  rfl

theorem exists_prepare_of_path {client : Client} {address : Url}
    (haddress : request.url client.root = .ok address) (other : Request)
    (hpath : other.renderPath = request.renderPath) :
    exists (url : Url) (prepared : HttpRequest), client.prepare other none = .ok prepared ∧
      prepared.url =
        if other.queryParams.isEmpty then url else url.addPairs other.queryParams := by
  unfold Client.prepare
  unfold url at haddress ⊢
  rw [hpath]
  cases hrender : request.renderPath with
  | error e =>
    rw [hrender] at haddress
    cases haddress
  | ok path =>
    rw [hrender] at haddress
    dsimp only at haddress ⊢
    cases hjoin : client.root.join (path.dropWhile (· == '/')) with
    | error fault =>
      rw [hjoin] at haddress
      cases haddress
    | ok url => exact ⟨url, _, rfl, rfl⟩

theorem exists_prepare_asksFor {client : Client} {address : Url}
    (haddress : request.url client.root = .ok address) (hquery : request.queryParams = [])
    (page size : UInt32) :
    exists prepared, client.prepare (request.forPage page size) none = .ok prepared ∧
      prepared.AsksFor page size := by
  rcases exists_prepare_of_path haddress (request.forPage page size) rfl with
    ⟨url, prepared, hprepare, hurl⟩
  rw [queryParams_forPage hquery] at hurl
  exact ⟨prepared, hprepare, asksFor_addPairs hurl⟩

end Request
end RestClient
