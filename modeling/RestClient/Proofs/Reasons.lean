import RestClient.Proofs.Rejections
import RestClient.Proofs.WireRecords

/-!
# Reasons

What a rejection says: the reasons that the provider lists, in their order and with their fields, or
the phrase of its status where it lists none.
-/

namespace RestClient

open Json

variable {entries : List Reason} {headers : Headers} {status : Status} {body : List UInt8}

/-!
## The body
-/

namespace ErrorEnvelope

theorem exists_carries (envelope : ErrorEnvelope) :
    exists form, Carries record.decoder 3 (encode envelope) envelope form := by
  have herrors : exists form, Carries decoder 2 (encode envelope.errors) envelope.errors form :=
    exists_carries_list Reason.tolerates.steady fun r _ => r.exists_carries
  rcases herrors with ⟨form, hform⟩
  have hcarried : record.fields.Carried 2 (envelope.errors, ()) _ _ :=
    .cons "errors" none hform .nil
  exact ⟨_, Record.carries areSteady (by decide) hcarried⟩

theorem decode_encode (envelope : ErrorEnvelope) :
    decode (encode envelope).toBytes = .ok envelope := by
  rcases envelope.exists_carries with ⟨form, hform⟩
  exact hform.decodeWith_eq tolerates.steady (by decide)

end ErrorEnvelope

/-!
## The headers
-/

theorem Headers.not_announcesReset
    (h : forall name, name ∈ Header.resets -> headers.get? name = none)
    (seconds : Nat) : ¬ headers.AnnouncesReset seconds := by
  rintro ⟨before, name, after, hresets, ⟨text, hread, -⟩, -⟩
  have hname : name ∈ Header.resets := by
    rw [hresets]
    exact List.mem_append_right before List.mem_cons_self
  unfold Headers.read? at hread
  rw [h name hname] at hread
  cases hread

namespace ApiError

theorem exists_ofResponse (h : forall name, name ∈ Header.resets -> headers.get? name = none)
    (now : Moment)
    (status : Status) (body : List UInt8) :
    exists e, ofResponse now ⟨status, headers, body⟩ = .ok e ∧ e.status = status ∧
      e.errors = reasons status body := by
  rcases RateLimit.ofHeaders_cases now headers with ⟨⟨info, hinfo⟩, -⟩ | ⟨-, seconds, hreset, -⟩
  · unfold ofResponse
    rw [hinfo]
    exact ⟨_, rfl, rfl, rfl⟩
  · exact absurd hreset (Headers.not_announcesReset h seconds)

/-!
## The reasons
-/

/-- The body lists no reason: it is no envelope, or an empty one. -/
def ListsNone (body : List UInt8) : Prop :=
  forall envelope : ErrorEnvelope, decode body = .ok envelope -> envelope.errors = []

theorem reasons_encode (h : entries ≠ []) (status : Status) :
    reasons status (encode (⟨entries⟩ : ErrorEnvelope)).toBytes = entries := by
  unfold reasons
  rw [ErrorEnvelope.decode_encode]
  cases entries with
  | nil => exact absurd rfl h
  | cons r rest => rfl

theorem reasons_of_listsNone (h : ListsNone body) (status : Status) :
    reasons status body = [fallback status] := by
  unfold reasons
  split
  · rfl
  · rename_i errors hnonempty hdecode
    have hnil : errors = [] := h ⟨errors⟩ hdecode
    subst hnil
    exact absurd rfl hnonempty
  · rfl

theorem map_fieldErrors (e : ApiError) :
    (e.fieldErrors.map fun p => (⟨some p.1, p.2⟩ : Reason)) = e.errors.filter (·.field.isSome) := by
  unfold fieldErrors
  induction e.errors with
  | nil => rfl
  | cons r rest ih =>
    rcases r with ⟨_ | field, reason⟩
    · exact ih
    · exact congrArg (⟨some field, reason⟩ :: ·) ih

theorem fieldError?_eq (e : ApiError) (name : String) :
    e.fieldError? name = (e.errors.find? (·.field = some name)).map (·.reason) := by
  unfold fieldError? fieldErrors
  induction e.errors with
  | nil => rfl
  | cons r rest ih =>
    rcases r with ⟨_ | field, reason⟩
    · exact ih
    · by_cases hname : field = name
      · simp [hname]
      · simpa [hname] using ih

theorem kind_eq_validation_iff (e : ApiError) :
    e.kind = .validation <->
      (e.status.code = 400 ∨ e.status.code = 422) ∧
        exists r, r ∈ e.errors ∧ r.field.isSome = true := by
  have hcondition : ((e.status.code == 400 || e.status.code == 422) &&
      e.errors.any (·.field.isSome)) = true <->
      (e.status.code = 400 ∨ e.status.code = 422) ∧
        exists r, r ∈ e.errors ∧ r.field.isSome = true := by
    rw [Bool.and_eq_true, Bool.or_eq_true, beq_iff_eq, beq_iff_eq, List.any_eq_true]
  unfold kind
  split
  case h_5 =>
    rw [← hcondition]
    split_ifs with hvalidation hserver
    · exact iff_of_true rfl hvalidation
    · exact iff_of_false (by decide) hvalidation
    · exact iff_of_false (by decide) hvalidation
  all_goals
    rename_i hcode
    refine iff_of_false (by decide) fun h => ?_
    omega

/-- The error says what the entries say. -/
structure Tells (e : ApiError) (entries : List Reason) : Prop where
  errors : e.errors = entries
  /-- The pairs are the entries that have a field. -/
  fieldErrors :
    (e.fieldErrors.map fun p => (⟨some p.1, p.2⟩ : Reason)) = entries.filter (·.field.isSome)
  /-- The first entry about the field counts. -/
  fieldError? : forall name,
    e.fieldError? name = (entries.find? (·.field = some name)).map (·.reason)
  validation : e.kind = .validation <->
    (e.status.code = 400 ∨ e.status.code = 422) ∧ exists r, r ∈ entries ∧ r.field.isSome = true

theorem tells_errors (e : ApiError) : e.Tells e.errors :=
  ⟨rfl, e.map_fieldErrors, e.fieldError?_eq, e.kind_eq_validation_iff⟩

/-- Without a field about the end of a rate limit window, an error carries the reasons of the
response as the provider lists them, or the phrase of the status where none are listed.  Status 404
says that nothing was found, whatever the body says. -/
theorem response_is_decoded_without_loss {headers : Headers}
    (hresets : forall name, name ∈ Header.resets -> headers.get? name = none) (now : Moment)
    (status : Status) :
    (forall entries : List Reason, entries ≠ [] -> exists e,
        ofResponse now ⟨status, headers, (encode (⟨entries⟩ : ErrorEnvelope)).toBytes⟩ = .ok e ∧
          e.status = status ∧ e.Tells entries) ∧
      (forall body, ListsNone body -> exists e, ofResponse now ⟨status, headers, body⟩ = .ok e ∧
        e.errors = [⟨none, status.phrase?.getD "Unknown error"⟩] ∧ e.kind ≠ .validation) ∧
      (status.code = 404 -> forall body, exists e, ofResponse now ⟨status, headers, body⟩ = .ok e ∧
        e.kind = .notFound) := by
  refine ⟨?_, ?_, ?_⟩
  · intro entries hentries
    rcases exists_ofResponse hresets now status (encode (⟨entries⟩ : ErrorEnvelope)).toBytes with
      ⟨e, he, hstatus, herrors⟩
    rw [reasons_encode hentries] at herrors
    exact ⟨e, he, hstatus, herrors ▸ e.tells_errors⟩
  · intro body hbody
    rcases exists_ofResponse hresets now status body with ⟨e, he, -, herrors⟩
    rw [reasons_of_listsNone hbody] at herrors
    refine ⟨e, he, herrors, ?_⟩
    rw [ne_eq, e.kind_eq_validation_iff, herrors]
    rintro ⟨-, r, hr, hfield⟩
    rw [List.mem_singleton.mp hr] at hfield
    cases hfield
  · intro hmissing body
    rcases exists_ofResponse hresets now status body with ⟨e, he, hstatus, -⟩
    exact ⟨e, he, kind_of_missing (hstatus ▸ hmissing)⟩

end ApiError

namespace Sample

def taken : List Reason := [⟨some "username", "taken"⟩, ⟨none, "bad"⟩]

theorem taken_is_decoded :
    (exists e, ApiError.ofResponse ⟨0⟩
        ⟨⟨400, by decide, by decide⟩, .empty, (encode (⟨taken⟩ : ErrorEnvelope)).toBytes⟩ = .ok e ∧
      e.errors = taken ∧ e.kind = .validation) ∧
      (exists e, ApiError.ofResponse ⟨0⟩ unavailable = .ok e ∧
        e.errors = [⟨none, "Service Unavailable"⟩]) ∧
      exists e, ApiError.ofResponse ⟨0⟩ ⟨⟨404, by decide, by decide⟩, .empty, []⟩ = .ok e ∧
        e.kind = .notFound := by
  have hresets : forall name, name ∈ Header.resets -> Headers.empty.get? name = none :=
    fun _ _ => rfl
  refine ⟨?_, ?_, ?_⟩
  · rcases (ApiError.response_is_decoded_without_loss hresets ⟨0⟩ ⟨400, by decide, by decide⟩).1
      taken (by decide) with ⟨e, he, hstatus, htells⟩
    refine ⟨e, he, htells.errors, htells.validation.mpr ⟨Or.inl ?_, by decide⟩⟩
    rw [hstatus]
  · have hbody : ApiError.ListsNone [] := by
      intro envelope hdecode
      cases hdecode
    rcases (ApiError.response_is_decoded_without_loss hresets ⟨0⟩ unavailable.status).2.1
      [] hbody with ⟨e, he, herrors, -⟩
    exact ⟨e, he, herrors⟩
  · exact (ApiError.response_is_decoded_without_loss hresets ⟨0⟩ ⟨404, by decide, by decide⟩).2.2
      rfl []

end Sample
end RestClient
