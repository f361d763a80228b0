import RestClient.Proofs.Skipping

/-!
# Scalars that stand alone

What a reader makes of a scalar depends on the scalar alone: whatever delimits it is left unread,
and a scalar that is refused is refused everywhere.
-/

namespace RestClient
namespace Json

open Reader

variable {α β : Type}

/-- The value and the rest of the text, or a failure where there is no value. -/
def Yields (value : Option α) (rest : List UInt8) (result : Except Failure (α × List UInt8)) :
    Prop :=
  match value with
  | some a => result = .ok (a, rest)
  | none => exists f, result = .error f

theorem Yields.eq_ok {a : α} {rest : List UInt8} {result : Except Failure (α × List UInt8)}
    (h : Yields (some a) rest result) : result = .ok (a, rest) :=
  h

theorem Yields.mapRead {value : Option α} {rest : List UInt8}
    {result : Except Failure (α × List UInt8)} (h : Yields value rest result) (f : α -> β) :
    Yields (value.map f) rest (mapRead f result) := by
  cases value with
  | none =>
    rcases h with ⟨failure, rfl⟩
    exact ⟨failure, rfl⟩
  | some a =>
    rw [h.eq_ok]
    rfl

/-- In front of whatever delimits it, the reader comes to one value or always fails. -/
def Settles (read : Reader α) : Prop :=
  exists value, forall rest, Delimits rest -> Yields value rest (read rest)

theorem Settles.congr {read read' : Reader α} (h : Settles read)
    (heq : forall rest, Delimits rest -> read' rest = read rest) : Settles read' := by
  rcases h with ⟨value, hvalue⟩
  refine ⟨value, ?_⟩
  intro rest hrest
  rw [heq rest hrest]
  exact hvalue rest hrest

theorem Settles.mapRead {read : Reader α} (h : Settles read) (f : α -> β) :
    Settles fun rest => mapRead f (read rest) := by
  rcases h with ⟨value, hvalue⟩
  exact ⟨value.map f, fun rest hrest => (hvalue rest hrest).mapRead f⟩

theorem settles_ok (a : α) : Settles fun rest => .ok (a, rest) :=
  ⟨some a, fun _ _ => rfl⟩

theorem settles_failAt (fault : Fault) (read : List UInt8 -> List UInt8) :
    Settles fun rest => (failAt fault (read rest) : Except Failure (α × List UInt8)) :=
  ⟨none, fun _ _ => ⟨_, rfl⟩⟩

/-!
## Numbers
-/

theorem settles_scaledNumber (negative : Bool) (significand : Nat) (exponent : Int) :
    Settles (scaledNumber negative significand exponent) := by
  unfold scaledNumber
  cases scaled significand exponent with
  | none => exact settles_failAt _ _
  | some x => exact settles_ok _

theorem settles_wholeNumber (negative : Bool) (significand : Nat) :
    Settles (wholeNumber negative significand) := by
  unfold wholeNumber
  cases negative with
  | false => exact settles_ok _
  | true =>
    by_cases hfloat : (significand == 0 || decide (1 <<< 63 < significand)) = true
    · simp only [hfloat]
      exact settles_scaledNumber true significand 0
    · simp only [hfloat]
      exact settles_ok _

def exponentEnd (negative down : Bool) (significand : Nat) (power : Int) :
    Nat × List UInt8 -> Reader Number
  | (e, []) => scaledNumber negative significand (if down then power - e else power + e)
  | (_, _ :: ignored) => fun rest =>
    if significand != 0 && !down then failAt .numberOutOfRange (ignored ++ rest)
    else .ok (withSign negative .zero, rest)

theorem settles_exponentEnd (negative down : Bool) (significand : Nat) (power : Int)
    (gathered : Nat × List UInt8) :
    Settles (exponentEnd negative down significand power gathered) := by
  rcases gathered with ⟨e, ignored⟩
  cases ignored with
  | nil => exact settles_scaledNumber negative significand _
  | cons b ignored =>
    unfold exponentEnd
    cases significand != 0 && !down with
    | true => exact settles_failAt .numberOutOfRange fun rest => ignored ++ rest
    | false => exact settles_ok (withSign negative .zero)

theorem exponentPart_of_isSign (negative : Bool) (significand : Nat) (power : Int)
    {sign : List UInt8} {d : UInt8} (hsign : IsSign sign) (hd : isDigit d = true)
    (s : List UInt8) :
    exponentPart negative significand power (sign ++ d :: s) =
      exponentEnd negative (sign == [byte '-']) significand power
        (gather (1 <<< 31) (digitValue d) (s.takeWhile isDigit)) (s.dropWhile isDigit) := by
  have hplus : d ≠ byte '+' := ne_of_isDigit hd rfl
  have hminus : d ≠ byte '-' := ne_of_isDigit hd rfl
  unfold exponentPart
  cases hsign with
  | none =>
    simp only [List.nil_append, beq_iff_eq, hplus, hminus, hd, if_true, if_false]
    rcases gather _ _ _ with ⟨e, ignored⟩
    cases ignored <;> rfl
  | plus =>
    simp only [List.cons_append, List.nil_append, BEq.rfl, hd, if_true]
    rcases gather _ _ _ with ⟨e, ignored⟩
    cases ignored <;> rfl
  | minus =>
    have hne : (byte '-' == byte '+') = false := by decide
    simp only [List.cons_append, List.nil_append, BEq.rfl, hne, Bool.false_eq_true, hd, if_true,
      if_false]
    rcases gather _ _ _ with ⟨e, ignored⟩
    cases ignored <;> rfl

theorem settles_exponentPart (negative : Bool) (significand : Nat) (power : Int)
    {sign digits : List UInt8} {d : UInt8} (hsign : IsSign sign) (h : Digits (d :: digits)) :
    Settles fun rest =>
      exponentPart negative significand power (sign ++ d :: (digits ++ rest)) := by
  have hd := h d List.mem_cons_self
  have hdigits : Digits digits := fun b hb => h b (List.mem_cons_of_mem d hb)
  apply (settles_exponentEnd negative (sign == [byte '-']) significand power
    (gather (1 <<< 31) (digitValue d) digits)).congr
  intro rest hrest
  rw [exponentPart_of_isSign negative significand power hsign hd,
    hdigits.takeWhile hrest.noDigit, hdigits.dropWhile hrest.noDigit]

theorem settles_exponentPart? (negative : Bool) (significand : Nat) (power : Int)
    {exponent : List UInt8} (h : IsExponent exponent) :
    Settles fun rest => exponentPart? negative significand power (exponent ++ rest) := by
  cases h with
  | none =>
    apply (settles_scaledNumber negative significand power).congr
    intro rest hrest
    cases hrest with
    | nil => rfl
    | cons hb s =>
      have hne := ne_of_mem_delimiters hb
      simp [exponentPart?, hne]
  | @digits e d sign digits he hsign h =>
    apply (settles_exponentPart negative significand power hsign h).congr
    intro rest hrest
    rw [List.cons_append, List.append_assoc]
    rcases he with rfl | rfl <;> rfl

theorem settles_fractionPart (negative : Bool) (significand : Nat) (power : Int)
    {digits exponent : List UInt8} {d : UInt8} (h : Digits (d :: digits))
    (hexponent : IsExponent exponent) :
    Settles fun rest =>
      fractionPart negative significand power (d :: digits ++ (exponent ++ rest)) := by
  rcases hgather : gather UInt64.size significand (d :: digits) with ⟨gathered, ignored⟩
  apply (settles_exponentPart? negative gathered
    (power - ((d :: digits).length - ignored.length : Nat)) hexponent).congr
  intro rest hrest
  have hnext := hexponent.noDigit hrest
  unfold fractionPart
  dsimp only
  rw [h.takeWhile hnext, h.dropWhile hnext, hgather]
  rfl

theorem settles_afterDigits (negative : Bool) (significand excess : Nat)
    {fraction exponent : List UInt8} (hfraction : IsFraction fraction)
    (hexponent : IsExponent exponent) :
    Settles fun rest =>
      afterDigits negative significand excess (fraction ++ (exponent ++ rest)) := by
  cases hfraction with
  | digits h =>
    exact settles_fractionPart negative significand excess h hexponent
  | none =>
    cases hexponent with
    | @digits e d sign digits he hsign h =>
      apply (settles_exponentPart negative significand excess hsign h).congr
      intro rest hrest
      rw [List.nil_append, List.cons_append, List.append_assoc]
      rcases he with rfl | rfl <;> rfl
    | none =>
      by_cases hexcess : (excess == 0) = true
      · apply (settles_wholeNumber negative significand).congr
        intro rest hrest
        cases hrest with
        | nil => simp [afterDigits, hexcess]
        | cons hb s =>
          have hne := ne_of_mem_delimiters hb
          simp [afterDigits, hne, hexcess]
      · apply (settles_scaledNumber negative significand excess).congr
        intro rest hrest
        cases hrest with
        | nil => simp [afterDigits, hexcess]
        | cons hb s =>
          have hne := ne_of_mem_delimiters hb
          simp [afterDigits, hne, hexcess]

theorem settles_number (negative : Bool) {text : List UInt8} (h : IsNumber text) :
    Settles fun rest => Reader.number negative (text ++ rest) := by
  rcases h with ⟨hwhole, hfraction, hexponent⟩
  cases hwhole with
  | zero =>
    apply (settles_afterDigits negative 0 0 hfraction hexponent).congr
    intro rest hrest
    have hnext := hfraction.noDigit (hexponent.noDigit hrest)
    rw [List.append_assoc, List.append_assoc]
    generalize _ ++ (_ ++ rest) = s at hnext ⊢
    cases s with
    | nil => rfl
    | cons b s =>
      have hb := hnext.head
      simp [Reader.number, hb]
  | @digits d digits hd hne h =>
    rcases hgather : gather UInt64.size (digitValue d) digits with ⟨gathered, ignored⟩
    apply (settles_afterDigits negative gathered ignored.length hfraction hexponent).congr
    intro rest hrest
    have hnext := hfraction.noDigit (hexponent.noDigit hrest)
    rw [List.append_assoc, List.append_assoc]
    simp [Reader.number, hne, hd, h.takeWhile hnext, h.dropWhile hnext, hgather]

/-!
## Strings

A string ends with its own quote, so that anything may follow it.
-/

theorem Yields.prepend {value : Option (List UInt8)} {rest : List UInt8}
    {result : Except Failure (List UInt8 × List UInt8)} (h : Yields value rest result)
    (bytes : List UInt8) : Yields (value.map (bytes ++ ·)) rest (prepend bytes result) := by
  cases value with
  | none =>
    rcases h with ⟨failure, rfl⟩
    exact ⟨failure, rfl⟩
  | some read =>
    rw [h.eq_ok]
    rfl

theorem escape_ne_quote : byte '\\' ≠ byte '"' := by decide

theorem content_quote (s : List UInt8) : content (byte '"' :: s) = .ok ([], s) := by
  rw [content.eq_def]
  exact if_pos rfl

theorem content_plain {b : UInt8} (hquote : b ≠ byte '"') (hescape : b ≠ byte '\\')
    (hcontrol : ¬ b < 0x20) (s : List UInt8) : content (b :: s) = prepend [b] (content s) := by
  conv => lhs; rw [content.eq_def]
  simp only [beq_iff_eq, hquote, hescape, hcontrol, if_false]

theorem content_short {e c : UInt8} (he : e ∈ shortEscapes) (hc : shortEscape? e = some c)
    (s : List UInt8) : content (byte '\\' :: e :: s) = prepend [c] (content s) := by
  have hall : forall e, e ∈ shortEscapes -> e ≠ byte 'u' := by decide +kernel
  conv => lhs; rw [content.eq_def]
  simp only [beq_iff_eq, escape_ne_quote, hall e he, hc, if_false, if_true]

theorem exists_content_short {e : UInt8} (he : e ∈ shortEscapes) :
    exists c, forall s, content (byte '\\' :: e :: s) = prepend [c] (content s) := by
  have hall : forall e, e ∈ shortEscapes -> (shortEscape? e).isSome = true := by decide +kernel
  rcases Option.isSome_iff_exists.mp (hall e he) with ⟨c, hc⟩
  exact ⟨c, content_short he hc⟩

section Units

variable {a b c d : UInt8} {n : Nat} (hn : hexUnit? a b c d = some n)
include hn

theorem content_low (hlow : isLowSurrogate n = true) (s : List UInt8) :
    content (byte '\\' :: byte 'u' :: a :: b :: c :: d :: s) = failAt .loneSurrogate s := by
  rw [content.eq_def]
  simp only [beq_iff_eq, escape_ne_quote, hn, hlow, if_false, if_true]

theorem content_unit (hlow : isLowSurrogate n = false) (hhigh : isHighSurrogate n = false)
    (s : List UInt8) :
    content (byte '\\' :: byte 'u' :: a :: b :: c :: d :: s) =
      prepend (codePoint n) (content s) := by
  conv => lhs; rw [content.eq_def]
  simp only [beq_iff_eq, escape_ne_quote, hn, hlow, hhigh, Bool.false_eq_true, if_false, if_true]

theorem content_high_plain (hlow : isLowSurrogate n = false) (hhigh : isHighSurrogate n = true)
    {x : UInt8} (hx : x ≠ byte '\\') (s : List UInt8) :
    content (byte '\\' :: byte 'u' :: a :: b :: c :: d :: x :: s) = failAt .endInEscape s := by
  rw [content.eq_def]
  simp only [beq_iff_eq, escape_ne_quote, hn, hlow, hhigh, hx, Bool.false_eq_true, if_false,
    if_true]

theorem content_high_short (hlow : isLowSurrogate n = false) (hhigh : isHighSurrogate n = true)
    {e : UInt8} (he : e ∈ shortEscapes) (s : List UInt8) :
    content (byte '\\' :: byte 'u' :: a :: b :: c :: d :: byte '\\' :: e :: s) =
      failAt .endInEscape s := by
  have hall : forall e, e ∈ shortEscapes -> e ≠ byte 'u' := by decide +kernel
  rw [content.eq_def]
  simp only [beq_iff_eq, escape_ne_quote, hn, hlow, hhigh, hall e he, Bool.false_eq_true,
    if_false, if_true]

theorem content_pair (hlow : isLowSurrogate n = false) (hhigh : isHighSurrogate n = true)
    {a' b' c' d' : UInt8} {m : Nat} (hm : hexUnit? a' b' c' d' = some m) (s : List UInt8) :
    content (byte '\\' :: byte 'u' :: a :: b :: c :: d ::
        byte '\\' :: byte 'u' :: a' :: b' :: c' :: d' :: s) =
      if isLowSurrogate m then prepend (codePoint (pairValue n m)) (content s)
      else failAt .loneSurrogate s := by
  conv => lhs; rw [content.eq_def]
  simp only [beq_iff_eq, escape_ne_quote, hn, hm, hlow, hhigh, Bool.false_eq_true, if_false,
    if_true]

end Units

/-- In front of a closing quote, whatever follows it, the content comes to the same bytes. -/
def ContentSettles (raw : List UInt8) : Prop :=
  exists value, forall rest, Yields value rest (content (raw ++ byte '"' :: rest))

theorem contentSettles_append {raw : List UInt8} (h : ContentSettles raw)
    (front bytes : List UInt8) (heq : forall s, content (front ++ s) = prepend bytes (content s)) :
    ContentSettles (front ++ raw) := by
  rcases h with ⟨value, hvalue⟩
  refine ⟨value.map (bytes ++ ·), ?_⟩
  intro rest
  rw [List.append_assoc, heq]
  exact (hvalue rest).prepend bytes

theorem contentSettles_of_error {raw : List UInt8}
    (h : forall rest, exists f, content (raw ++ byte '"' :: rest) = .error f) :
    ContentSettles raw :=
  ⟨none, h⟩

/-- Half of a pair depends on what follows it, so that the recursion looks at two units. -/
theorem contentSettles : forall {raw : List UInt8}, IsContent raw -> ContentSettles raw
  | _, .nil => ⟨some [], fun rest => content_quote rest⟩
  | _, @IsContent.plain b raw hquote hescape hcontrol h =>
    contentSettles_append (contentSettles h) [b] [b] (content_plain hquote hescape hcontrol)
  | _, @IsContent.short e raw he h => by
    rcases exists_content_short he with ⟨c, hc⟩
    exact contentSettles_append (contentSettles h) [byte '\\', e] [c] hc
  | _, @IsContent.unit a b c d raw hhex h => by
    rcases Skip.exists_hexUnit? hhex with ⟨n, hn⟩
    cases hlow : isLowSurrogate n with
    | true =>
      apply contentSettles_of_error
      intro rest
      exact ⟨_, content_low hn hlow _⟩
    | false =>
      cases hhigh : isHighSurrogate n with
      | false =>
        exact contentSettles_append (contentSettles h) [byte '\\', byte 'u', a, b, c, d]
          (codePoint n) (content_unit hn hlow hhigh)
      | true =>
        cases h with
        | nil =>
          apply contentSettles_of_error
          intro rest
          exact ⟨_, content_high_plain hn hlow hhigh (by decide) _⟩
        | plain hquote hescape hcontrol h =>
          apply contentSettles_of_error
          intro rest
          exact ⟨_, content_high_plain hn hlow hhigh hescape _⟩
        | short he h =>
          apply contentSettles_of_error
          intro rest
          exact ⟨_, content_high_short hn hlow hhigh he _⟩
        | @unit a' b' c' d' raw hhex' h =>
          rcases Skip.exists_hexUnit? hhex' with ⟨m, hm⟩
          have hpair := content_pair hn hlow hhigh hm
          cases hlow' : isLowSurrogate m with
          | true =>
            rw [hlow'] at hpair
            exact contentSettles_append (contentSettles h)
              [byte '\\', byte 'u', a, b, c, d, byte '\\', byte 'u', a', b', c', d']
              (codePoint (pairValue n m)) hpair
          | false =>
            rw [hlow'] at hpair
            apply contentSettles_of_error
            intro rest
            exact ⟨_, hpair _⟩

theorem exists_stringBody {raw : List UInt8} (h : IsContent raw) :
    exists value, forall rest, Yields value rest (stringBody (raw ++ byte '"' :: rest)) := by
  rcases contentSettles h with ⟨value, hvalue⟩
  cases value with
  | none =>
    refine ⟨none, ?_⟩
    intro rest
    rcases hvalue rest with ⟨failure, hfailure⟩
    refine ⟨failure, ?_⟩
    unfold stringBody
    rw [hfailure]
  | some bytes =>
    refine ⟨(Utf8.decode bytes).map String.ofList, ?_⟩
    intro rest
    unfold stringBody
    rw [(hvalue rest).eq_ok]
    dsimp only
    cases Utf8.decode bytes with
    | none => exact ⟨_, rfl⟩
    | some text => rfl

/-!
## Tokens
-/

theorem token_of_isNumber {text rest : List UInt8} (h : IsNumber text) :
    token (text ++ rest) = mapRead .number (Reader.number false (text ++ rest)) := by
  rcases h.exists_cons with ⟨d, s, rfl, hd⟩
  have hn : d ≠ byte 'n' := ne_of_isDigit hd rfl
  have ht : d ≠ byte 't' := ne_of_isDigit hd rfl
  have hf : d ≠ byte 'f' := ne_of_isDigit hd rfl
  have hminus : d ≠ byte '-' := ne_of_isDigit hd rfl
  unfold token
  rw [List.cons_append, skipSpace_of_not_mem (not_mem_delimiters_of_isDigit hd)]
  simp only [beq_iff_eq, hn, ht, hf, hminus, hd, if_false, if_true]

theorem exists_token {text : List UInt8} (h : IsScalar text) :
    exists value, (forall t, t ∈ value -> t ≠ Token.list ∧ t ≠ Token.object) ∧
      forall rest, Delimits rest -> Yields value rest (token (text ++ rest)) := by
  cases h with
  | null => exact ⟨some .null, by simp, fun rest _ => rfl⟩
  | true => exact ⟨some (.bool true), by simp, fun rest _ => rfl⟩
  | false => exact ⟨some (.bool false), by simp, fun rest _ => rfl⟩
  | number h =>
    rcases settles_number false h with ⟨value, hvalue⟩
    refine ⟨value.map Token.number, by simp, ?_⟩
    intro rest hrest
    rw [token_of_isNumber h]
    exact (hvalue rest hrest).mapRead Token.number
  | @negative text h =>
    rcases settles_number true h with ⟨value, hvalue⟩
    refine ⟨value.map Token.number, by simp, ?_⟩
    intro rest hrest
    exact (hvalue rest hrest).mapRead Token.number
  | @string raw h =>
    rcases exists_stringBody h with ⟨value, hvalue⟩
    refine ⟨value.map Token.string, by simp, ?_⟩
    intro rest hrest
    have happend : byte '"' :: (raw ++ [byte '"']) ++ rest =
        byte '"' :: (raw ++ byte '"' :: rest) := by
      simp
    rw [happend]
    exact (hvalue rest).mapRead Token.string

end Json
end RestClient
