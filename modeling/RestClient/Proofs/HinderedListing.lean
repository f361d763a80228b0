import RestClient.Proofs.Creation
import RestClient.Proofs.Streaming
import RestClient.Proofs.Transient

/-!
# Listings against transient failures

Transient failures between the pages of a listing change nothing but the number of times that a
page is asked for, as long as no page has more of them than there are retries.
-/

namespace RestClient

/-- The replies to the requests for one page: failures, and the reply that ends them. -/
structure Leg where
  failures : List Reply
  reply : Reply

def Leg.replies (leg : Leg) : List Reply := leg.failures ++ [leg.reply]

def World.scripted (w : World Script) (replies : List Reply) : World Script :=
  { w with transport := ⟨replies⟩ }

namespace Client

variable {σ α : Type} [Transport σ] [Json.Decode α] {client : Client} {request : Request}
  {body : Option Payload} {w w' : World σ}

theorem exists_prepare_of_call {response : Response α}
    (h : client.call request body w = (.ok response, w')) :
    exists prepared, client.prepare request body = .ok prepared := by
  cases hprepare : client.prepare request body with
  | ok prepared => exact ⟨prepared, rfl⟩
  | error e =>
    rw [call_of_callUntil (callUntil_of_error hprepare _ w) (by simp)] at h
    cases h

theorem length_requests_call {prepared : HttpRequest} (hopen : w.isCanceled client.cancel = false)
    (hprepare : client.prepare request body = .ok prepared) :
    w.requests.length <
      (client.call request body w : Except Halt (Response α) × World σ).2.requests.length := by
  have hfirst := getElem?_requests_call (α := α) client request body w
  unfold firstRequest? at hfirst
  rw [hopen, if_neg Bool.false_ne_true, hprepare] at hfirst
  exact (List.getElem?_eq_some_iff.mp hfirst).1

end Client

namespace Listing

section Asking

variable {σ α : Type} [Transport σ] [Json.Decode α] {listing : Listing α} {page : UInt32}
  {items : List α} {w w' : World σ}

theorem exists_ask_of_collect (hpage : listing.paginator.nextPage = some page)
    (h : listing.collect w = (.ok items, w')) :
    exists response w₁, listing.ask page w = (.ok response, w₁) ∧
      (listing.absorb page response.data).collect
        (w₁.report (.fetched listing.request.path response.data.descriptor)) = (.ok items, w') := by
  rw [collect_of_page hpage] at h
  rcases hask : listing.ask page w with ⟨halt | response, w₁⟩
  · rw [fetch_of_error hask] at h
    cases h
  · rw [fetch_of_ok hask] at h
    exact ⟨response, w₁, rfl, h⟩

theorem ended_of_collect (hcancel : listing.client.cancel = none)
    (h : listing.collect w = (.ok items, w')) (hquiet : w'.requests.length = w.requests.length) :
    listing.paginator.nextPage = none ∧ items = listing.buffer ∧ w' = w := by
  cases hpage : listing.paginator.nextPage with
  | none =>
    rw [collect_of_ended hpage] at h
    cases h
    exact ⟨rfl, rfl, rfl⟩
  | some page =>
    rcases exists_ask_of_collect hpage h with ⟨response, w₁, hask, hrest⟩
    rcases Client.exists_prepare_of_call hask with ⟨prepared, hprepare⟩
    have hopen : w.isCanceled listing.client.cancel = false := by
      rw [hcancel]
      rfl
    have hsent := Client.length_requests_call (α := Page α) hopen hprepare
    have hasked : (listing.client.call (listing.request.forPage page listing.paginator.pageSize)
        none w : Except Halt (Response (Page α)) × World σ) = (.ok response, w₁) := hask
    have hmoves := moves_collectWithin (listing.absorb page response.data).pagesLeft
      (listing.absorb page response.data)
      (w₁.report (.fetched listing.request.path response.data.descriptor))
    have hcollected : collectWithin (listing.absorb page response.data).pagesLeft
      (listing.absorb page response.data)
      (w₁.report (.fetched listing.request.path response.data.descriptor)) = _ := hrest
    rw [hcollected] at hmoves
    have hreported := (World.drifts_report w₁
      (.fetched listing.request.path response.data.descriptor)
      (by simp [Event.failure?])).sameTraffic.requests
    rcases hmoves.requests with ⟨more, hmore⟩
    rw [hasked] at hsent
    rw [hreported] at hmore
    rw [hmore, List.length_append] at hquiet
    dsimp only at hsent
    omega

end Asking

variable {α : Type} [Json.Decode α] {listing : Listing α} {page : UInt32} {prepared : HttpRequest}
  {failures rest : List Reply} {reply : Reply} {retries : Nat}

theorem fetch_overcomes (hclient : listing.client.Persists retries)
    (hidempotent : listing.request.idempotent = true)
    (hprepare : listing.client.prepare
      (listing.request.forPage page listing.paginator.pageSize) none = .ok prepared)
    (hfailures : forall failure, failure ∈ failures -> listing.client.IsTransient failure)
    (hlength : failures.length ≤ retries) {data : Page α}
    (hreply : listing.client.Brings reply data) {w : World Script}
    (hreplies : w.transport.replies = failures ++ reply :: rest) :
    exists (delays : List Duration) (w' : World Script), delays.length = failures.length ∧
      Outing w rest (Deed.repeated prepared delays) w' ∧
      listing.fetch page w = (.ok (listing.absorb page data), w') := by
  have hrepeatable : (listing.request.forPage page listing.paginator.pageSize).idempotent = true :=
    hidempotent
  rcases Client.call_overcomes hclient hrepeatable hprepare hfailures hlength hreply hreplies with
    ⟨response, delays, w₁, hdata, hdelays, hw₁, hcall⟩
  have hfetch := fetch_of_ok hcall
  rw [hdata] at hfetch
  exact ⟨delays, _, hdelays, hw₁.of_drifts (World.drifts_report w₁ _ (by simp [Event.failure?])),
    hfetch⟩

/-- Two runs of a listing have got the same pages, the second one against failures.  Each visit is
a request with the delays after which the second run has repeated it. -/
structure Abreast (listing : Listing α) (legs : List Leg) (w v : World Script)
    (plain hindered : List Reply) (visits : List (HttpRequest × List Duration))
    (reached : Listing α) (w₁ v₁ : World Script) : Prop where
  client : reached.client = listing.client
  request : reached.request = listing.request
  collect_plain : listing.collect w = reached.collect w₁
  collect_hindered : listing.collect v = reached.collect v₁
  plain : Outing w plain (visits.map fun visit => .sent visit.1) w₁
  hindered : Outing v hindered (visits.flatMap fun visit => Deed.repeated visit.1 visit.2) v₁
  repeated : visits.map (·.2.length) = legs.map (·.failures.length)

/-- Every leg ends with a page, after no more transient failures than there are retries. -/
structure Passable (client : Client) (retries : Nat) (α : Type) [Json.Decode α] (leg : Leg) :
    Prop where
  failures : forall failure, failure ∈ leg.failures -> client.IsTransient failure
  length_le : leg.failures.length ≤ retries
  brings : exists data : Page α, client.Brings leg.reply data

theorem exists_abreast (hclient : listing.client.Persists retries)
    (hidempotent : listing.request.idempotent = true) {legs : List Leg}
    (hlegs : forall leg, leg ∈ legs -> Passable listing.client retries α leg)
    {plain hindered : List Reply}
    {w w' v : World Script} {items : List α} (h : listing.collect w = (.ok items, w'))
    (hcount : w.requests.length + legs.length ≤ w'.requests.length)
    (hplain : w.transport.replies = legs.map (·.reply) ++ plain)
    (hhindered : v.transport.replies = legs.flatMap Leg.replies ++ hindered) :
    exists visits reached w₁ v₁, listing.Abreast legs w v plain hindered visits reached w₁ v₁ := by
  induction legs generalizing listing w v with
  | nil =>
    have hstill := Outing.refl w
    rw [hplain] at hstill
    have hstill' := Outing.refl v
    rw [hhindered] at hstill'
    exact ⟨[], listing, w, v, rfl, rfl, rfl, rfl, hstill, hstill', rfl⟩
  | cons leg legs ih =>
    rw [List.length_cons] at hcount
    have hleg := hlegs leg List.mem_cons_self
    rcases hleg.brings with ⟨data, hdata⟩
    cases hpage : listing.paginator.nextPage with
    | none =>
      rw [collect_of_ended hpage] at h
      cases h
      omega
    | some page =>
      rcases exists_ask_of_collect hpage h with ⟨_, _, hask, _⟩
      rcases Client.exists_prepare_of_call hask with ⟨prepared, hprepare⟩
      have hnone : forall failure, failure ∈ ([] : List Reply) ->
          listing.client.IsTransient failure := by simp
      rw [List.flatMap_cons, Leg.replies, List.append_assoc, List.append_assoc] at hhindered
      rcases fetch_overcomes hclient hidempotent hprepare hnone (Nat.zero_le retries) hdata hplain
        with ⟨none, w₁, hnothing, hw₁, hfetch⟩
      rcases fetch_overcomes hclient hidempotent hprepare hleg.failures hleg.length_le hdata
        hhindered with ⟨delays, v₁, hdelays, hv₁, hfetch'⟩
      rw [List.length_eq_zero_iff.mp hnothing] at hw₁
      have hcollect := collect_of_fetch hpage hfetch
      have hcollect' := collect_of_fetch hpage hfetch'
      have hsent : w₁.requests = w.requests ++ [prepared] := hw₁.requests
      have hcount' : w₁.requests.length + legs.length ≤ w'.requests.length := by
        rw [hsent, List.length_append, List.length_singleton]
        omega
      have hclient' : (listing.absorb page data).client.Persists retries := hclient
      rcases ih hclient' hidempotent
        (fun later hlater => hlegs later (List.mem_cons_of_mem _ hlater))
        (hcollect.symm.trans h) hcount' hw₁.replies hv₁.replies
        with ⟨visits, reached, w₂, v₂, habreast⟩
      refine ⟨(prepared, delays) :: visits, reached, w₂, v₂, habreast.client, habreast.request,
        hcollect.trans habreast.collect_plain, hcollect'.trans habreast.collect_hindered,
        hw₁.trans habreast.plain, hv₁.trans habreast.hindered, ?_⟩
      rw [List.map_cons, List.map_cons, habreast.repeated, hdelays]

theorem Abreast.length_requests {legs : List Leg} {w v w₁ v₁ : World Script}
    {plain hindered : List Reply} {visits : List (HttpRequest × List Duration)}
    {reached : Listing α} (h : listing.Abreast legs w v plain hindered visits reached w₁ v₁) :
    w₁.requests.length = w.requests.length + legs.length := by
  have hsent : (visits.map fun visit => Deed.sent visit.1).filterMap Deed.request? =
      visits.map Prod.fst := by
    rw [List.filterMap_map]
    exact congrFun List.filterMap_eq_map' visits
  have hlengths := congrArg List.length h.repeated
  rw [List.length_map, List.length_map] at hlengths
  rw [h.plain.requests, hsent, List.length_append, List.length_map, hlengths]

theorem collect_overcomes (hclient : listing.client.Persists retries)
    (hidempotent : listing.request.idempotent = true) {legs : List Leg}
    (hlegs : forall leg, leg ∈ legs -> Passable listing.client retries α leg)
    {w w' v : World Script}
    {items : List α} (h : listing.collect w = (.ok items, w'))
    (hcount : w'.requests.length = w.requests.length + legs.length)
    (hplain : w.transport.replies = legs.map (·.reply) ++ rest)
    (hhindered : v.transport.replies = legs.flatMap Leg.replies ++ rest) :
    exists (visits : List (HttpRequest × List Duration)) (v' : World Script),
      listing.collect v = (.ok items, v') ∧
      w'.outward = w.outward ++ visits.map (fun visit => .sent visit.1) ∧
      v'.outward = v.outward ++ visits.flatMap (fun visit => Deed.repeated visit.1 visit.2) ∧
      visits.map (·.2.length) = legs.map (·.failures.length) := by
  rcases exists_abreast hclient hidempotent hlegs h hcount.ge hplain hhindered with
    ⟨visits, reached, w₁, v₁, habreast⟩
  have hrest := habreast.collect_plain.symm.trans h
  have hcancel : reached.client.cancel = none := by
    rw [habreast.client]
    exact hclient.cancel
  rcases ended_of_collect hcancel hrest (hcount.trans habreast.length_requests.symm) with
    ⟨hended, rfl, rfl⟩
  refine ⟨visits, v₁, ?_, habreast.plain.outward, habreast.hindered.outward, habreast.repeated⟩
  rw [habreast.collect_hindered, collect_of_ended hended]

theorem collect_exhausts (hclient : listing.client.Persists retries)
    (hidempotent : listing.request.idempotent = true) {before : List Leg} {leg : Leg}
    (hbefore : forall earlier, earlier ∈ before -> Passable listing.client retries α earlier)
    (hleg : forall failure, failure ∈ leg.failures -> listing.client.IsTransient failure)
    {last : Reply}
    (hlast : leg.failures[retries]? = some last) {plain hindered : List Reply}
    {w w' v : World Script} {items : List α} (h : listing.collect w = (.ok items, w'))
    (hcount : w.requests.length + before.length < w'.requests.length)
    (hplain : w.transport.replies = before.map (·.reply) ++ plain)
    (hhindered : v.transport.replies =
      before.flatMap Leg.replies ++ (leg.failures ++ hindered)) :
    exists e, listing.client.outcome? v.clock (retries + 1) last =
        some (.error e : Except Error (Response (Page α))) ∧
      (listing.collect v).1 = .error (.failed e) := by
  rcases exists_abreast hclient hidempotent hbefore h hcount.le hplain hhindered with
    ⟨visits, reached, w₁, v₁, habreast⟩
  have hrest := habreast.collect_plain.symm.trans h
  cases hpage : reached.paginator.nextPage with
  | none =>
    rw [collect_of_ended hpage] at hrest
    cases hrest
    have hsent := habreast.length_requests
    omega
  | some page =>
    rcases exists_ask_of_collect hpage hrest with ⟨_, _, hask, _⟩
    rcases Client.exists_prepare_of_call hask with ⟨prepared, hprepare⟩
    -- The failures that are followed by a retry, and the one that is not.
    rcases List.getElem?_eq_some_iff.mp hlast with ⟨hretries, hget⟩
    have hsplit : leg.failures =
        leg.failures.take retries ++ last :: leg.failures.drop (retries + 1) := by
      rw [← hget, List.getElem_cons_drop, List.take_append_drop]
    have hreplies := habreast.hindered.replies
    rw [hsplit, List.append_assoc, List.cons_append] at hreplies
    rw [← habreast.client] at hclient hleg ⊢
    rw [← habreast.request] at hidempotent
    have hrepeatable :
        (reached.request.forPage page reached.paginator.pageSize).idempotent = true := hidempotent
    rcases Client.call_exhausts (α := Page α) hclient hrepeatable hprepare
      (fun failure hmem => hleg failure (List.mem_of_mem_take hmem))
      (List.length_take_of_le hretries.le) (hleg last (List.mem_of_getElem? hlast)) hreplies
      with ⟨e, delays, v', he, _, _, hcall⟩
    rw [habreast.hindered.clock] at he
    refine ⟨e, he, ?_⟩
    rw [habreast.collect_hindered, collect_of_page hpage, fetch_of_error hcall]

end Listing

/-!
## Listings of a collection
-/

theorem Request.exists_headers_of_withHeader {request request' : Request} {name value : String}
    (h : request.withHeader name value = .ok request') :
    exists headers, request' = { request with headers } := by
  unfold withHeader at h
  cases hfield : Header.field? name value with
  | error e =>
    rw [hfield] at h
    cases h
  | ok field =>
    rw [hfield] at h
    cases h
    exact ⟨_, rfl⟩

theorem ListOptions.exists_headers_of_apply {options : ListOptions} {request : Request}
    {size : UInt32} {applied : Request × UInt32} (h : options.apply request size = .ok applied) :
    exists headers, applied.1 = { request with headers } := by
  unfold apply at h
  dsimp only at h
  by_cases hsize : (options.pageSize.getD size).toNat < leastPageSize ∨
      greatestPageSize < (options.pageSize.getD size).toNat
  · rw [if_pos hsize] at h
    cases h
  · rw [if_neg hsize] at h
    cases hfilter : options.filter with
    | none =>
      rw [hfilter] at h
      cases h
      exact ⟨request.headers, rfl⟩
    | some filter =>
      rw [hfilter] at h
      dsimp only at h
      cases hheader : request.withHeader filterHeader filter.text with
      | error e =>
        rw [hheader] at h
        cases h
      | ok request' =>
        rw [hheader] at h
        cases h
        exact Request.exists_headers_of_withHeader hheader

namespace Collection

variable {α Create Update : Type} {c : Collection Create Update} {options : ListOptions}

theorem idempotent_of_stream {listing : Listing α} (h : c.stream options = .ok listing) :
    listing.request.idempotent = true := by
  rcases Listing.start_eq_ok_iff.mp h with ⟨applied, happly, rfl⟩
  rcases ListOptions.exists_headers_of_apply happly with ⟨headers, hrequest⟩
  show applied.1.idempotent = true
  rw [hrequest]
  exact c.idempotent_request .get c.resource.collectionPath

/-- Suppose that a listing gets each of its pages at once.  With transient failures before the
pages, no more of them before any page than there are retries, it returns the same items and
repeats the request for each page as often as it has failed.  Otherwise it fails with the first
failure that is not followed by a retry. -/
theorem list_overcomes_transient_failures [Json.Decode α] {w w₁ : World Script} {retries : Nat}
    {legs : List Leg} {rest : List Reply} {items : List α} (hclient : c.client.Persists retries)
    (hlist : c.list options (w.scripted (legs.map (·.reply) ++ rest)) = (.ok items, w₁))
    (hcount : w₁.requests.length = w.requests.length + legs.length)
    (hbrings : forall leg, leg ∈ legs -> exists data : Page α, c.client.Brings leg.reply data)
    (hfailures : forall leg, leg ∈ legs -> forall failure, failure ∈ leg.failures ->
      c.client.IsTransient failure) :
    ((forall leg, leg ∈ legs -> leg.failures.length ≤ retries) ->
      exists (visits : List (HttpRequest × List Duration)) (w₂ : World Script),
        c.list options (w.scripted (legs.flatMap Leg.replies ++ rest)) = (.ok items, w₂) ∧
        w₁.outward = w.outward ++ visits.map (fun visit => .sent visit.1) ∧
        w₂.outward = w.outward ++ visits.flatMap (fun visit => Deed.repeated visit.1 visit.2) ∧
        visits.map (·.2.length) = legs.map (·.failures.length)) ∧
    forall before leg after last, legs = before ++ leg :: after ->
      (forall earlier, earlier ∈ before -> earlier.failures.length ≤ retries) ->
      leg.failures[retries]? = some last ->
      exists e, c.client.outcome? w.clock (retries + 1) last =
          some (.error e : Except Error (Response (Page α))) ∧
        (c.list options (w.scripted (legs.flatMap Leg.replies ++ rest)) :
          Except Halt (List α) × World Script).1 = .error (.failed e) := by
  cases hstream : (c.stream options : Except Error (Listing α)) with
  | error e =>
    unfold list at hlist
    rw [hstream] at hlist
    cases hlist
  | ok listing =>
    have hlisted : forall v : World Script, c.list options v = listing.collect v := by
      intro v
      unfold list
      rw [hstream]
    have hidempotent := idempotent_of_stream hstream
    rw [← Operation.client_of_stream hstream] at hclient hbrings hfailures ⊢
    rw [hlisted] at hlist ⊢
    constructor
    · intro hlengths
      have hpassable : forall leg, leg ∈ legs -> Listing.Passable listing.client retries α leg :=
        fun leg hleg => ⟨hfailures leg hleg, hlengths leg hleg, hbrings leg hleg⟩
      have hplain : (w.scripted (legs.map (·.reply) ++ rest)).transport.replies =
          legs.map (·.reply) ++ rest := rfl
      have hhindered : (w.scripted (legs.flatMap Leg.replies ++ rest)).transport.replies =
          legs.flatMap Leg.replies ++ rest := rfl
      have hovercomes := Listing.collect_overcomes hclient hidempotent hpassable hlist hcount hplain
        hhindered
      exact hovercomes
    · rintro before leg after last rfl hlengths hlast
      have hhindered : (before ++ leg :: after).flatMap Leg.replies ++ rest =
          before.flatMap Leg.replies ++
            (leg.failures ++ (leg.reply :: (after.flatMap Leg.replies ++ rest))) := by
        simp [Leg.replies]
      have hplain : (before ++ leg :: after).map (·.reply) ++ rest =
          before.map (·.reply) ++ ((leg :: after).map (·.reply) ++ rest) := by
        rw [List.map_append, List.append_assoc]
      refine Listing.collect_exhausts (v := w.scripted _) hclient hidempotent
        ?_ ?_ hlast hlist ?_ hplain hhindered
      · intro earlier hmem
        have hearlier : earlier ∈ before ++ leg :: after := List.mem_append_left _ hmem
        exact ⟨hfailures earlier hearlier, hlengths earlier hmem, hbrings earlier hearlier⟩
      · exact hfailures leg (by simp)
      · rw [hcount, List.length_append, List.length_cons]
        show w.requests.length + before.length < _
        omega

end Collection

namespace Sample

theorem persists : client.Persists 2 :=
  ⟨rfl, rfl, rfl, rfl, by decide⟩

theorem isTransient_unavailable : client.IsTransient (reply 3 (some (.ok unavailable))) :=
  Client.isTransient_of_outcome (Or.inr ⟨unavailable, rfl, Or.inr rfl, fun _ _ => rfl⟩)

theorem brings_of_value? {response : HttpResponse} {data : Page UInt64}
    (h : response.value? = some data) : client.Brings (reply 3 (some (.ok response))) data := by
  have htime : (Duration.ofMillis 3).ticks ≤ (Duration.ofMillis 100).ticks := by decide
  exact ⟨response, if_pos htime, h⟩

def twoPages : List Reply :=
  [reply 3 (some (.ok (listed [7, 8] 1 2))), reply 3 (some (.ok (listed [9] 2 2)))]

def hinderedPages (failures : Nat) : List Leg :=
  twoPages.map fun page => ⟨.replicate failures (reply 3 (some (.ok unavailable))), page⟩

theorem brings_hinderedPages {failures : Nat} :
    forall leg, leg ∈ hinderedPages failures ->
      exists data : Page UInt64, client.Brings leg.reply data := by
  intro leg hleg
  rcases List.mem_pair.mp hleg with rfl | rfl
  · exact ⟨⟨[7, 8], 1, 2, 0⟩, brings_of_value? (by decide +kernel)⟩
  · exact ⟨⟨[9], 2, 2, 0⟩, brings_of_value? (by decide +kernel)⟩

theorem isTransient_hinderedPages {failures : Nat} :
    forall leg, leg ∈ hinderedPages failures -> forall failure, failure ∈ leg.failures ->
      client.IsTransient failure := by
  intro leg hleg failure hfailure
  rcases List.mem_map.mp hleg with ⟨page, _, rfl⟩
  rw [List.eq_of_mem_replicate hfailure]
  exact isTransient_unavailable

theorem exists_list_hinderedPages (failures : Nat) :
    exists w₁ : World Script,
      numbers.list .default ((world []).scripted ((hinderedPages failures).map (·.reply) ++ [])) =
          (.ok [(7 : UInt64), 8, 9], w₁) ∧
        w₁.requests.length = (world []).requests.length + (hinderedPages failures).length := by
  have hplain : (hinderedPages failures).map (·.reply) = twoPages := rfl
  have hlength : (hinderedPages failures).length = 2 := rfl
  have hitems : (numbers.list .default ((world []).scripted (twoPages ++ []))).1 =
      .ok [(7 : UInt64), 8, 9] := by
    decide +kernel
  have hcount : (numbers.list .default ((world []).scripted (twoPages ++ [])) :
      Except Halt (List UInt64) × World Script).2.requests.length = 2 := by
    decide +kernel
  rw [hplain, hlength]
  rcases hlist : (numbers.list .default ((world []).scripted (twoPages ++ [])) :
    Except Halt (List UInt64) × World Script) with ⟨result, w₁⟩
  rw [hlist] at hitems hcount
  exact ⟨w₁, by rw [← hitems], hcount⟩

theorem list_in_spite_of_failures :
    (exists (visits : List (HttpRequest × List Duration)) (w₂ : World Script),
      numbers.list .default ((world []).scripted ((hinderedPages 2).flatMap Leg.replies ++ [])) =
          (.ok [(7 : UInt64), 8, 9], w₂) ∧
        w₂.outward = [] ++ visits.flatMap (fun visit => Deed.repeated visit.1 visit.2) ∧
        visits.map (·.2.length) = [2, 2]) ∧
      exists e, (numbers.list .default
          ((world []).scripted ((hinderedPages 3).flatMap Leg.replies ++ [])) :
            Except Halt (List UInt64) × World Script).1 = .error (.failed e) := by
  constructor
  · rcases exists_list_hinderedPages 2 with ⟨w₁, hlist, hcount⟩
    have hfew : forall leg, leg ∈ hinderedPages 2 -> leg.failures.length ≤ 2 := by
      intro leg hleg
      rcases List.mem_map.mp hleg with ⟨page, _, rfl⟩
      exact List.length_replicate.le
    have hboth := Collection.list_overcomes_transient_failures persists hlist hcount
      brings_hinderedPages isTransient_hinderedPages
    rcases hboth.1 hfew with ⟨visits, w₂, hitems, _, hdone, hrepeated⟩
    exact ⟨visits, w₂, hitems, hdone, hrepeated⟩
  · rcases exists_list_hinderedPages 3 with ⟨w₁, hlist, hcount⟩
    have hboth := Collection.list_overcomes_transient_failures persists hlist hcount
      brings_hinderedPages isTransient_hinderedPages
    rcases hboth.2 [] _ _ _ rfl (by simp) rfl with ⟨e, _, hfailed⟩
    exact ⟨e, hfailed⟩

end Sample
end RestClient
