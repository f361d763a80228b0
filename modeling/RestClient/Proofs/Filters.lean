import RestClient.Proofs.FieldTexts
import RestClient.Proofs.LastWrites
import RestClient.Proofs.Layers
import RestClient.Proofs.PageRequests

/-!
# Filters

A filter is sent with every page that is asked for, in one header field from which it can be read
back, or it is refused before anything is sent.
-/

namespace RestClient

variable {σ α : Type}

/-!
## Fields of one name
-/

namespace Headers

variable {headers newer : Headers} {name : Header.Name} {value : Header.Value}

def HasOnly (headers : Headers) (name : Header.Name) (value : Header.Value) : Prop :=
  (headers.fields.filter fun field => field.1 = name) = [(name, value)]

theorem hasOnly_insert (headers : Headers) (name : Header.Name) (value : Header.Value) :
    (headers.insert name value).HasOnly name value :=
  Assoc.filter_set_self headers.fields name value

theorem hasOnly_overlay_insert (headers newer : Headers) (name : Header.Name)
    (value : Header.Value) : (headers.overlay (newer.insert name value)).HasOnly name value := by
  have hlast : headers.overlay (newer.insert name value) =
      (headers.overlay ⟨newer.fields.filter fun field => field.1 ≠ name⟩).insert name value := by
    unfold overlay
    rw [insert, Assoc.set, List.foldl_append]
    rfl
  rw [hlast]
  exact hasOnly_insert _ name value

end Headers

/-!
## Options with a filter
-/

namespace Collection

variable {Create Update : Type} {c : Collection Create Update} {options : ListOptions}
  {filter : Json}

/-- The field that says what to send of a filter. -/
def IsFiltered (filter : Json) (request : HttpRequest) : Prop :=
  request.headers.HasOnly Header.filter ⟨filter.text⟩

theorem apply_of_filter (hsize : ¬ c.RefusesSize options) (hfilter : options.filter = some filter)
    (request : Request) :
    options.apply request c.client.pageSize =
      match Header.Value.ofString? filter.text with
      | none => .error (.configuration .headerValue)
      | some value => .ok
          ({ request with headers := request.headers.insert Header.filter value },
            options.pageSize.getD c.client.pageSize) := by
  have hvalid : ¬ ((options.pageSize.getD c.client.pageSize).toNat < leastPageSize ∨
      greatestPageSize < (options.pageSize.getD c.client.pageSize).toNat) := by
    have hinside := not_not.mp hsize
    show ¬ (_ < 25 ∨ 500 < _)
    omega
  unfold ListOptions.apply
  rw [if_neg hvalid, hfilter]
  cases hvalue : Header.Value.ofString? filter.text with
  | some value =>
    dsimp only
    rw [Request.withHeader_filter hvalue]
  | none =>
    have hname : Header.Name.ofString? ListOptions.filterHeader = some Header.filter := by decide
    dsimp only
    unfold Request.withHeader Header.field?
    rw [hname, hvalue]

theorem apply_of_sendable (hsize : ¬ c.RefusesSize options) (hfilter : options.filter = some filter)
    (hsendable : ¬ filter.Contains '\x7f') (request : Request) :
    options.apply request c.client.pageSize = .ok
      ({ request with headers := request.headers.insert Header.filter ⟨filter.text⟩ },
        options.pageSize.getD c.client.pageSize) := by
  rw [apply_of_filter hsize hfilter, Json.ofString?_text hsendable]

theorem apply_of_unsendable (hsize : ¬ c.RefusesSize options)
    (hfilter : options.filter = some filter) (hunsendable : filter.Contains '\x7f')
    (request : Request) :
    options.apply request c.client.pageSize = .error (.configuration .headerValue) := by
  rw [apply_of_filter hsize hfilter, Json.ofString?_text_of_contains hunsendable]

theorem isFiltered_of_prepare {client : Client} {request : Request} {prepared : HttpRequest}
    (hfiltered : exists headers : Headers,
      request.headers = headers.insert Header.filter ⟨filter.text⟩)
    (h : client.prepare request none = .ok prepared) : IsFiltered filter prepared := by
  rcases hfiltered with ⟨headers, hheaders⟩
  unfold IsFiltered
  rw [Client.headers_of_prepare h, hheaders]
  exact Headers.hasOnly_overlay_insert _ _ _ _

theorem asksWith_isFiltered (hsize : ¬ c.RefusesSize options)
    (hfilter : options.filter = some filter) (hsendable : ¬ filter.Contains '\x7f') :
    c.AsksWith options (IsFiltered filter) := by
  intro applied happly page prepared hprepare
  rw [apply_of_sendable hsize hfilter hsendable] at happly
  cases happly
  exact isFiltered_of_prepare ⟨_, rfl⟩ hprepare

theorem stream_of_unsendable (hsize : ¬ c.RefusesSize options)
    (hfilter : options.filter = some filter) (hunsendable : filter.Contains '\x7f') :
    (c.stream options : Except Error (Listing α)) = .error (.configuration .headerValue) := by
  unfold stream Listing.start
  rw [apply_of_unsendable hsize hfilter hunsendable]

end Collection

namespace Operation

open Collection (IsFiltered)

variable [Transport σ] [Json.Decode α] {Create Update : Type} {c : Collection Create Update}
  {options : ListOptions} {filter : Json} {operation : Operation Create Update}

theorem run_of_unsendable (hsize : ¬ c.RefusesSize options)
    (hfilter : options.filter = some filter) (hunsendable : filter.Contains '\x7f')
    (hoptions : operation.options? = some options) (hpage : operation ≠ .listPage 0 options)
    (w : World σ) :
    exists outcome : Outcome α, operation.run c w = (outcome, w) ∧
      operation.ComesToNothing (.failed (.configuration .headerValue)) outcome := by
  have hstream : (c.stream options : Except Error (Listing α)) = _ :=
    Collection.stream_of_unsendable hsize hfilter hunsendable
  rcases options?_cases hoptions with rfl | ⟨page, rfl⟩ | ⟨steps, rest, rfl⟩
  · have hlist : (c.list options w : Except Halt (List α) × World σ) =
        (.error (.failed (.configuration .headerValue)), w) := by
      unfold Collection.list
      rw [hstream]
    exact ⟨_, congrArg (Prod.map Outcome.items id) hlist, Or.inl rfl⟩
  · have hnonzero : page ≠ 0 := fun hzero => hpage (congrArg (listPage · options) hzero)
    have hlist : (c.listPage page options w : Except Halt (Page α) × World σ) =
        (.error (.failed (.configuration .headerValue)), w) := by
      unfold Collection.listPage
      rw [if_neg hnonzero, Collection.apply_of_unsendable hsize hfilter hunsendable]
    exact ⟨_, congrArg (Prod.map Outcome.page id) hlist, Or.inl rfl⟩
  · have hbegin : (begin c options steps rest w : Outcome α × World σ) =
        (Outcome.items (.error (.failed (.configuration .headerValue))), w) := by
      unfold begin
      rw [hstream]
    exact ⟨_, hbegin, Or.inr ⟨⟨options, steps, rest, rfl⟩, rfl⟩⟩

/-- A filter is refused before anything is sent, whatever page is asked for, if some text inside it
has the one control character that compact text does not escape.  If not, the pages are asked for,
each with the filter's compact text in one field, and the text says what the filter says as long as
its numbers are whole and no more brackets stand around one another than a decoder opens. -/
theorem filter_is_sent_with_every_page_or_refused (hsize : ¬ c.RefusesSize options)
    (hfilter : options.filter = some filter) :
    (forall request, (exists e, options.apply request c.client.pageSize = .error e) <->
        filter.Contains '\x7f') ∧
      (filter.Contains '\x7f' ->
        (forall request,
          options.apply request c.client.pageSize = .error (.configuration .headerValue)) ∧
        forall operation : Operation Create Update, operation.options? = some options ->
          operation ≠ .listPage 0 options -> forall w : World σ, exists outcome : Outcome α,
            operation.run c w = (outcome, w) ∧
              operation.ComesToNothing (.failed (.configuration .headerValue)) outcome) ∧
      (¬ filter.Contains '\x7f' -> forall operation : Operation Create Update,
        operation.options? = some options -> forall w : World σ,
          operation.SendsPages c options (IsFiltered filter) w
            (operation.run c w : Outcome α × World σ).2) ∧
      (filter.HasWholeNumbers -> filter.IsOrdered -> filter.NestsWithin 127 ->
        Json.decode (Utf8.bytes filter.text) = .ok filter) := by
  refine ⟨?_, ?_, ?_, ?_⟩
  · intro request
    by_cases hcontains : filter.Contains '\x7f'
    · exact iff_of_true ⟨_, Collection.apply_of_unsendable hsize hfilter hcontains request⟩
        hcontains
    · refine iff_of_false ?_ hcontains
      rintro ⟨e, he⟩
      rw [Collection.apply_of_sendable hsize hfilter hcontains] at he
      cases he
  · intro hunsendable
    refine ⟨Collection.apply_of_unsendable hsize hfilter hunsendable, ?_⟩
    intro operation hoptions hpage w
    exact run_of_unsendable hsize hfilter hunsendable hoptions hpage w
  · intro hsendable operation hoptions w
    exact sendsPages_run (Collection.asksWith_isFiltered hsize hfilter hsendable) hoptions w
  · intro hwhole hordered hnests
    have hbytes : Utf8.bytes filter.text = filter.toBytes := by
      unfold Utf8.bytes Json.text
      rw [String.toList_ofList]
      rfl
    rw [hbytes]
    exact Json.NestsWithin.decode_eq hnests hwhole hordered

end Operation

namespace Sample

open Json

def filter : Json := .object [("a\"\n", .string "\\é\x08"), ("b", .number (.integer (-5)))]

def filtered : Operation Unit Unit := .list ⟨none, none, some filter⟩

def unsendable : Operation Unit Unit := .list ⟨none, none, some (.object [("\x7f", .null)])⟩

def onePage : World Script := world [reply 0 (some (.ok (listed [7] 1 1)))]

theorem filter_isOrdered : filter.IsOrdered := by
  rintro members (_ | _ | ⟨hm, h⟩)
  · decide +kernel
  · simp only [List.mem_cons, List.not_mem_nil, or_false] at hm
    rcases hm with rfl | rfl <;> cases h

theorem filter_hasWholeNumbers : filter.HasWholeNumbers := by
  rintro n (_ | _ | ⟨hm, h⟩)
  simp only [List.mem_cons, List.not_mem_nil, or_false] at hm
  rcases hm with rfl | rfl
  · cases h
  · cases h
    exact ⟨-5, rfl, by decide⟩

theorem filter_nestsWithin : filter.NestsWithin 127 := by
  apply NestsWithin.object
  simp only [List.mem_cons, List.not_mem_nil, or_false]
  rintro m (rfl | rfl)
  · exact .string _ _
  · exact .number _ _

theorem filter_is_sent :
    (exists prepared, (filtered.run numbers onePage : Outcome UInt64 × World Script).2.requests =
        [prepared] ∧ Collection.IsFiltered filter prepared) ∧
      decode (Utf8.bytes filter.text) = .ok filter ∧
      exists outcome : Outcome UInt64, unsendable.run numbers onePage = (outcome, onePage) := by
  have hsize : forall filter, ¬ numbers.RefusesSize ⟨none, none, filter⟩ := by
    intro filter
    have hhundred : 25 ≤ (100 : UInt32).toNat ∧ (100 : UInt32).toNat ≤ 500 := by decide
    exact not_not.mpr hhundred
  have hfaithful := @Operation.filter_is_sent_with_every_page_or_refused Script UInt64 _ _ _ _
    numbers _ _ (hsize (some filter)) rfl
  have hsendable : ¬ filter.Contains '\x7f' := (all_render_iff filter).mp (by decide +kernel)
  refine ⟨?_, hfaithful.2.2.2 filter_hasWholeNumbers filter_isOrdered filter_nestsWithin, ?_⟩
  · have hlength :
        (filtered.run numbers onePage : Outcome UInt64 × World Script).2.requests.length = 1 := by
      decide +kernel
    rcases (hfaithful.2.2.1 hsendable filtered rfl onePage).all with ⟨sent, hsent, hall⟩
    have hempty : onePage.requests = [] := rfl
    rw [hsent, hempty, List.nil_append] at hlength ⊢
    rcases List.length_eq_one_iff.mp hlength with ⟨prepared, rfl⟩
    exact ⟨prepared, rfl, hall prepared List.mem_cons_self⟩
  · have hrefused := @Operation.filter_is_sent_with_every_page_or_refused Script UInt64 _ _ _ _
      numbers _ _ (hsize (some (.object [("\x7f", .null)]))) rfl
    have hcontains : (Json.object [("\x7f", .null)]).Contains '\x7f' :=
      ⟨"\x7f", .key (.self _) List.mem_cons_self rfl, by decide⟩
    rcases (hrefused.2.1 hcontains).2 unsendable rfl (by simp [unsendable]) onePage with
      ⟨outcome, hrun, -⟩
    exact ⟨outcome, hrun⟩

end Sample
end RestClient
