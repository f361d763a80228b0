import RestClient.Sample
import Mathlib.Data.List.Basic

/-!
# Rejections

What becomes of a response outside the 2xx class, whatever its headers and its body hold.  It is
decoded, unless it announces the end of a rate limit window that lies beyond the clock.
-/

namespace RestClient

/-!
## Numerals
-/

namespace Numeral

/-- The text writes a word in decimal digits, perhaps behind a plus sign. -/
def Writes (text : List Char) (n : Nat) : Prop :=
  exists digits, (text = digits ∨ text = '+' :: digits) ∧ digits ≠ [] ∧
    (forall c, c ∈ digits -> c.isDigit = true) ∧ Nat.ofDigitChars 10 digits 0 = n ∧ n < UInt64.size

variable {text : List Char} {n : Nat}

theorem digit?_eq_ite (c : Char) : digit? c = if c.isDigit then some (c.toNat - 48) else none := by
  have hdigit : ('0' ≤ c ∧ c ≤ '9') <-> c.isDigit = true := by
    rw [Char.isDigit_iff_toNat]
    exact Iff.rfl
  unfold digit?
  by_cases h : '0' ≤ c ∧ c ≤ '9'
  · rw [if_pos h, if_pos (hdigit.mp h)]
  · rw [if_neg h, if_neg fun hc => h (hdigit.mpr hc)]

theorem extend_eq_some_iff {value : Nat} :
    extend value text = some n <->
      (forall c, c ∈ text -> c.isDigit = true) ∧ Nat.ofDigitChars 10 text value = n := by
  induction text generalizing value with
  | nil =>
    rw [extend, Option.some.injEq]
    exact ⟨fun h => ⟨by simp, h⟩, fun h => h.2⟩
  | cons c rest ih =>
    rw [extend, digit?_eq_ite, Nat.ofDigitChars_cons, List.forall_mem_cons, and_assoc]
    by_cases hc : c.isDigit = true
    · rw [if_pos hc, and_iff_right hc, Nat.mul_comm]
      exact ih
    · rw [if_neg hc]
      exact iff_of_false (Option.some_ne_none n).symm fun h => hc h.1

theorem word?_eq_some_iff :
    word? text = some n <-> text ≠ [] ∧ (forall c, c ∈ text -> c.isDigit = true) ∧
      Nat.ofDigitChars 10 text 0 = n ∧ n < UInt64.size := by
  have hnat : nat? text = some n <-> text ≠ [] ∧ extend 0 text = some n := by
    cases text with
    | nil => simp [nat?]
    | cons c rest => simp [nat?]
  have hword : word? text = some n <-> nat? text = some n ∧ n < UInt64.size := by
    unfold word?
    cases nat? text with
    | none => simp
    | some m =>
      dsimp only
      by_cases hm : m < UInt64.size
      · rw [if_pos hm]
        exact ⟨fun h => ⟨h, (Option.some.inj h) ▸ hm⟩, fun h => h.1⟩
      · rw [if_neg hm]
        exact iff_of_false (Option.some_ne_none n).symm fun h => hm (Option.some.inj h.1 ▸ h.2)
  rw [hword, hnat, extend_eq_some_iff, and_assoc, and_assoc]

theorem signedWord?_eq_some_iff : signedWord? text = some n <-> Writes text n := by
  have hplus : ('+' : Char).isDigit ≠ true := by decide
  unfold Writes signedWord?
  split
  · rename_i rest
    rw [word?_eq_some_iff]
    constructor
    · intro h
      exact ⟨rest, Or.inr rfl, h⟩
    · rintro ⟨digits, rfl | htext, hdigits⟩
      · exact absurd (hdigits.2.1 '+' List.mem_cons_self) hplus
      · injection htext with _ hrest
        rw [hrest]
        exact hdigits
  · rename_i hunsigned
    rw [word?_eq_some_iff]
    constructor
    · intro h
      exact ⟨text, Or.inl rfl, h⟩
    · rintro ⟨digits, rfl | htext, hdigits⟩
      · exact hdigits
      · exact absurd htext (hunsigned digits)

end Numeral

/-!
## Header fields
-/

namespace Headers

def States (headers : Headers) (name : Header.Name) (n : Nat) : Prop :=
  exists text, headers.read? name = some text ∧ Numeral.Writes (Blank.trim text) n

def AsksToWait (headers : Headers) : Prop :=
  (exists seconds, headers.States Header.retryAfter seconds) ∨
    exists text date, headers.read? Header.retryAfter = some text ∧ Date.ofText? text = some date

/-- The second at which a rate limit window ends, as the first of the names states it that states
anything. -/
def AnnouncesReset (headers : Headers) (seconds : Nat) : Prop :=
  exists before name after, Header.resets = before ++ name :: after ∧ headers.States name seconds ∧
    forall other, other ∈ before -> forall n, ¬ headers.States other n

end Headers

namespace RateLimit

variable {headers : Headers} {name : Header.Name} {n seconds : Nat}

theorem word?_eq_some_iff : word? headers name = some n <-> headers.States name n := by
  unfold word? Headers.States
  rw [Option.bind_eq_some_iff]
  simp only [Numeral.signedWord?_eq_some_iff]

theorem word?_eq_none_iff : word? headers name = none <-> forall n, ¬ headers.States name n := by
  simp only [Option.eq_none_iff_forall_ne_some, ne_eq, word?_eq_some_iff]

theorem announcesReset_iff :
    Header.resets.findSome? (word? headers) = some seconds <-> headers.AnnouncesReset seconds := by
  rw [List.findSome?_eq_some_iff]
  simp only [word?_eq_some_iff, word?_eq_none_iff]
  rfl

theorem isSome_retryAfter?_iff (now : Moment) (headers : Headers) :
    (retryAfter? now headers).isSome = true <-> headers.AsksToWait := by
  unfold retryAfter? Headers.AsksToWait Headers.States
  cases headers.read? Header.retryAfter with
  | none => simp
  | some text =>
    rw [Option.bind_some]
    cases hword : Numeral.signedWord? (Blank.trim text) with
    | some n =>
      have hwrites := Numeral.signedWord?_eq_some_iff.mp hword
      exact ⟨fun _ => Or.inl ⟨n, text, rfl, hwrites⟩, fun _ => rfl⟩
    | none =>
      have hnone : forall n, ¬ Numeral.Writes (Blank.trim text) n := by
        intro n hwrites
        rw [Numeral.signedWord?_eq_some_iff.mpr hwrites] at hword
        cases hword
      dsimp only
      rw [Option.isSome_map, Option.isSome_iff_exists]
      constructor
      · rintro ⟨date, hdate⟩
        exact Or.inr ⟨text, date, rfl, hdate⟩
      · rintro (⟨n, _, heq, hwrites⟩ | ⟨_, date, heq, hdate⟩)
        · cases heq
          exact absurd hwrites (hnone n)
        · cases heq
          exact ⟨date, hdate⟩

theorem isLimited_iff {now : Moment} {info : RateLimit} (h : ofHeaders now headers = .ok info) :
    info.isLimited = true <-> headers.AsksToWait ∨ headers.States Header.remaining 0 := by
  unfold ofHeaders at h
  cases hreset : reset? headers with
  | error overflow =>
    rw [hreset] at h
    cases h
  | ok resetAt =>
    rw [hreset] at h
    cases h
    unfold isLimited
    rw [Bool.or_eq_true, isSome_retryAfter?_iff, beq_iff_eq, word?_eq_some_iff]

theorem ofHeaders_cases (now : Moment) (headers : Headers) :
    ((exists info, ofHeaders now headers = .ok info) ∧
        forall seconds, headers.AnnouncesReset seconds -> seconds < 1 <<< 63) ∨
      (ofHeaders now headers = .error .resetTime ∧
        exists seconds, headers.AnnouncesReset seconds ∧ 1 <<< 63 ≤ seconds) := by
  unfold ofHeaders reset?
  cases hresets : Header.resets.findSome? (word? headers) with
  | none =>
    refine Or.inl ⟨⟨_, rfl⟩, ?_⟩
    intro seconds hseconds
    rw [announcesReset_iff.mpr hseconds] at hresets
    cases hresets
  | some seconds =>
    have hannounced := announcesReset_iff.mp hresets
    dsimp only
    by_cases hlate : seconds < 1 <<< 63
    · rw [if_pos hlate]
      refine Or.inl ⟨⟨_, rfl⟩, ?_⟩
      intro other hother
      rw [announcesReset_iff.mpr hother] at hresets
      cases hresets
      exact hlate
    · rw [if_neg hlate]
      exact Or.inr ⟨rfl, seconds, hannounced, Nat.le_of_not_lt hlate⟩

end RateLimit

/-!
## Responses
-/

namespace ApiError

variable {now : Moment} {response : HttpResponse} {e : ApiError}

/-- The error says of the response what there is to say: at least one reason, its status and
headers, and the rate limit advice if the response is about a rate limit. -/
structure Reports (e : ApiError) (response : HttpResponse) : Prop where
  errors : e.errors ≠ []
  status : e.status = response.status
  headers : e.headers = response.headers
  rateLimit : e.rateLimit.isSome = true <->
    response.status.code = 429 ∨ response.headers.AsksToWait ∨
      response.headers.States Header.remaining 0

theorem kind_of_missing (h : e.status.code = 404) : e.kind = .notFound := by
  unfold kind
  rw [h]
  rfl

theorem reasons_ne_nil (status : Status) (body : List UInt8) : reasons status body ≠ [] := by
  unfold reasons
  split
  · exact List.cons_ne_nil _ _
  · rename_i hnonempty _
    exact hnonempty
  · exact List.cons_ne_nil _ _

theorem reports_of_ofHeaders {info : RateLimit}
    (h : RateLimit.ofHeaders now response.headers = .ok info) :
    exists e, ofResponse now response = .ok e ∧ e.Reports response := by
  unfold ofResponse
  rw [h]
  refine ⟨_, rfl, reasons_ne_nil _ _, rfl, rfl, ?_⟩
  dsimp only
  rw [← RateLimit.isLimited_iff h, Option.isSome_ite, Bool.or_eq_true, beq_iff_eq]
  exact or_comm

/-- A response is decoded, whatever it holds, exactly if the end of its rate limit window, where it
announces one, is a moment of the clock.  Otherwise the program ends there. -/
theorem response_is_decoded_unless_reset_is_late (now : Moment) (response : HttpResponse) :
    ((exists e, ofResponse now response = .ok e ∧ e.Reports response) ∧
        forall seconds, response.headers.AnnouncesReset seconds -> seconds < 1 <<< 63) ∨
      (ofResponse now response = .error .resetTime ∧
        exists seconds, response.headers.AnnouncesReset seconds ∧ 1 <<< 63 ≤ seconds) := by
  rcases RateLimit.ofHeaders_cases now response.headers with
    ⟨⟨info, hinfo⟩, hearly⟩ | ⟨herror, hlate⟩
  · exact Or.inl ⟨reports_of_ofHeaders hinfo, hearly⟩
  · refine Or.inr ⟨?_, hlate⟩
    unfold ofResponse
    rw [herror]

end ApiError

namespace Sample

def lateReset : HttpResponse :=
  { unavailable with headers := ⟨[(⟨"x-ratelimit-reset"⟩, ⟨"9223372036854775808"⟩)]⟩ }

theorem late_reset_is_not_decoded : ¬ exists e, ApiError.ofResponse ⟨0⟩ lateReset = .ok e := by
  have hoverflow : ApiError.ofResponse ⟨0⟩ lateReset = .error .resetTime := by decide +kernel
  rintro ⟨e, he⟩
  rw [hoverflow] at he
  cases he

end Sample
end RestClient
