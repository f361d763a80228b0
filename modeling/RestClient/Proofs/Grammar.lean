import RestClient.Json.Token

/-!
# The grammar of JSON texts

What a JSON text says, apart from the space between its parts, is a form: a tree whose leaves are
scalars as they are written.  A form is spelled by many texts, and by the plain one that has no
space.
-/

namespace RestClient
namespace Json

open Reader

/-!
## Scalars
-/

def Spaces (pad : List UInt8) : Prop := forall b, b ∈ pad -> isSpace b = true

def Digits (digits : List UInt8) : Prop := forall d, d ∈ digits -> isDigit d = true

def isHex (b : UInt8) : Bool :=
  (0x30 ≤ b && b ≤ 0x39) || (0x41 ≤ b && b ≤ 0x46) || (0x61 ≤ b && b ≤ 0x66)

def shortEscapes : List UInt8 :=
  [byte '"', byte '\\', byte '/', byte 'b', byte 'f', byte 'n', byte 'r', byte 't']

/-- What stands between the quotes of a string.  An escape may name any code unit. -/
inductive IsContent : List UInt8 -> Prop where
  | nil : IsContent []
  | plain {b : UInt8} {rest : List UInt8} (hquote : b ≠ byte '"') (hescape : b ≠ byte '\\')
      (hcontrol : ¬ b < 0x20) (h : IsContent rest) : IsContent (b :: rest)
  | short {e : UInt8} {rest : List UInt8} (he : e ∈ shortEscapes) (h : IsContent rest) :
      IsContent (byte '\\' :: e :: rest)
  | unit {a b c d : UInt8} {rest : List UInt8} (hhex : forall x, x ∈ [a, b, c, d] -> isHex x = true)
      (h : IsContent rest) : IsContent (byte '\\' :: byte 'u' :: a :: b :: c :: d :: rest)

def IsPlain (b : UInt8) : Prop := b ≠ byte '"' ∧ b ≠ byte '\\' ∧ ¬ b < 0x20

instance (b : UInt8) : Decidable (IsPlain b) := inferInstanceAs (Decidable (_ ∧ _))

theorem isContent_of_isPlain {raw : List UInt8} (h : forall b, b ∈ raw -> IsPlain b) :
    IsContent raw := by
  induction raw with
  | nil => exact .nil
  | cons b raw ih =>
    rcases h b List.mem_cons_self with ⟨hquote, hescape, hcontrol⟩
    exact .plain hquote hescape hcontrol (ih fun c hc => h c (List.mem_cons_of_mem b hc))

/-- The digits before the point: zero alone, or digits that do not begin with zero. -/
inductive IsWhole : List UInt8 -> Prop where
  | zero : IsWhole [byte '0']
  | digits {d : UInt8} {rest : List UInt8} (hd : isDigit d = true) (hne : d ≠ byte '0')
      (h : Digits rest) : IsWhole (d :: rest)

inductive IsFraction : List UInt8 -> Prop where
  | none : IsFraction []
  | digits {d : UInt8} {rest : List UInt8} (h : Digits (d :: rest)) :
      IsFraction (byte '.' :: d :: rest)

inductive IsSign : List UInt8 -> Prop where
  | none : IsSign []
  | plus : IsSign [byte '+']
  | minus : IsSign [byte '-']

inductive IsExponent : List UInt8 -> Prop where
  | none : IsExponent []
  | digits {e d : UInt8} {sign rest : List UInt8} (he : e = byte 'e' ∨ e = byte 'E')
      (hsign : IsSign sign) (h : Digits (d :: rest)) : IsExponent (e :: (sign ++ d :: rest))

inductive IsNumber : List UInt8 -> Prop where
  | parts {whole fraction exponent : List UInt8} (hwhole : IsWhole whole)
      (hfraction : IsFraction fraction) (hexponent : IsExponent exponent) :
      IsNumber (whole ++ (fraction ++ exponent))

inductive IsScalar : List UInt8 -> Prop where
  | null : IsScalar [byte 'n', byte 'u', byte 'l', byte 'l']
  | true : IsScalar [byte 't', byte 'r', byte 'u', byte 'e']
  | false : IsScalar [byte 'f', byte 'a', byte 'l', byte 's', byte 'e']
  | number {text : List UInt8} (h : IsNumber text) : IsScalar text
  | negative {text : List UInt8} (h : IsNumber text) : IsScalar (byte '-' :: text)
  | string {raw : List UInt8} (h : IsContent raw) :
      IsScalar (byte '"' :: (raw ++ [byte '"']))

structure Scalar where
  text : List UInt8
  isScalar : IsScalar text

structure Key where
  raw : List UInt8
  isContent : IsContent raw

/-!
## Forms
-/

inductive Form where
  | scalar (scalar : Scalar)
  | list (items : List Form)
  | object (members : List (Key × Form))

/-- A form, or what follows the opening bracket of a list or an object, its first item or any
later one being next. -/
inductive Piece where
  | value (form : Form)
  | items (first : Bool) (items : List Form)
  | members (first : Bool) (members : List (Key × Form))

def separator (first : Bool) : List UInt8 := if first then [] else [byte ',']

/-- The text spells the piece, with space wherever it may stand but around the whole. -/
inductive Spells : Piece -> List UInt8 -> Prop where
  | scalar (scalar : Scalar) : Spells (.value (.scalar scalar)) scalar.text
  | list {items : List Form} {s : List UInt8} (h : Spells (.items true items) s) :
      Spells (.value (.list items)) (byte '[' :: s)
  | object {members : List (Key × Form)} {s : List UInt8} (h : Spells (.members true members) s) :
      Spells (.value (.object members)) (byte '\x7b' :: s)
  | closeList (first : Bool) {pad : List UInt8} (hpad : Spaces pad) :
      Spells (.items first []) (pad ++ [byte ']'])
  | item (first : Bool) {pad space text s : List UInt8} {form : Form} {items : List Form}
      (hpad : Spaces pad) (hspace : Spaces space) (hform : Spells (.value form) text)
      (h : Spells (.items false items) s) :
      Spells (.items first (form :: items)) (pad ++ (separator first ++ (space ++ (text ++ s))))
  | closeObject (first : Bool) {pad : List UInt8} (hpad : Spaces pad) :
      Spells (.members first []) (pad ++ [byte '\x7d'])
  | member (first : Bool) {pad space before after text s : List UInt8} {key : Key} {form : Form}
      {members : List (Key × Form)} (hpad : Spaces pad) (hspace : Spaces space)
      (hbefore : Spaces before) (hafter : Spaces after) (hform : Spells (.value form) text)
      (h : Spells (.members false members) s) :
      Spells (.members first ((key, form) :: members))
        (pad ++ (separator first ++ (space ++ (byte '"' :: (key.raw ++ (byte '"' ::
          (before ++ (byte ':' :: (after ++ (text ++ s))))))))))

inductive Writes (form : Form) : List UInt8 -> Prop where
  | mk {pad text space : List UInt8} (hpad : Spaces pad) (h : Spells (.value form) text)
      (hspace : Spaces space) : Writes form (pad ++ (text ++ space))

/-!
## Plain texts
-/

mutual

def Form.text : Form -> List UInt8
  | .scalar scalar => scalar.text
  | .list items => byte '[' :: itemsText true items
  | .object members => byte '\x7b' :: membersText true members

def itemsText : Bool -> List Form -> List UInt8
  | _, [] => [byte ']']
  | first, form :: rest => separator first ++ (form.text ++ itemsText false rest)

def membersText : Bool -> List (Key × Form) -> List UInt8
  | _, [] => [byte '\x7d']
  | first, (key, form) :: rest =>
    separator first ++ (byte '"' :: (key.raw ++ (byte '"' :: (byte ':' ::
      (form.text ++ membersText false rest)))))

end

theorem spaces_nil : Spaces [] := by
  intro b hb
  cases hb

mutual

theorem spells_text : forall form : Form, Spells (.value form) form.text
  | .scalar scalar => by
    rw [Form.text]
    exact .scalar scalar
  | .list items => by
    rw [Form.text]
    exact .list (spells_itemsText true items)
  | .object members => by
    rw [Form.text]
    exact .object (spells_membersText true members)

theorem spells_itemsText : forall (first : Bool) (items : List Form),
    Spells (.items first items) (itemsText first items)
  | first, [] => by
    rw [itemsText]
    exact .closeList first spaces_nil
  | first, form :: rest => by
    rw [itemsText]
    exact .item first spaces_nil spaces_nil (spells_text form) (spells_itemsText false rest)

theorem spells_membersText : forall (first : Bool) (members : List (Key × Form)),
    Spells (.members first members) (membersText first members)
  | first, [] => by
    rw [membersText]
    exact .closeObject first spaces_nil
  | first, (key, form) :: rest => by
    rw [membersText]
    exact .member first spaces_nil spaces_nil spaces_nil spaces_nil (spells_text form)
      (spells_membersText false rest)

end

/-!
## Space and delimiters
-/

theorem spaces_append {pad space : List UInt8} (hpad : Spaces pad) (hspace : Spaces space) :
    Spaces (pad ++ space) := by
  intro b hb
  exact (List.mem_append.mp hb).elim (hpad b) (hspace b)

theorem writes_text (form : Form) : Writes form form.text := by
  have hwrites := Writes.mk spaces_nil (spells_text form) spaces_nil
  rw [List.nil_append, List.append_nil] at hwrites
  exact hwrites

theorem skipSpace_append {pad : List UInt8} (h : Spaces pad) (s : List UInt8) :
    skipSpace (pad ++ s) = skipSpace s :=
  List.dropWhile_append_of_pos h

theorem skipSpace_of_not_isSpace {b : UInt8} (h : isSpace b = false) (s : List UInt8) :
    skipSpace (b :: s) = b :: s := by
  unfold skipSpace
  rw [List.dropWhile_cons_of_neg]
  simpa using h

def delimiters : List UInt8 :=
  [0x20, 0x0A, 0x09, 0x0D, byte ',', byte ']', byte '\x7d']

/-- A value in front of this text is over. -/
inductive Delimits : List UInt8 -> Prop where
  | nil : Delimits []
  | cons {b : UInt8} (hb : b ∈ delimiters) (s : List UInt8) : Delimits (b :: s)

theorem mem_delimiters_of_isSpace {b : UInt8} (h : isSpace b = true) : b ∈ delimiters := by
  unfold isSpace at h
  simp only [Bool.or_eq_true, beq_iff_eq] at h
  rcases h with ((rfl | rfl) | rfl) | rfl <;> decide

theorem delimits_append {pad : List UInt8} (hpad : Spaces pad) {b : UInt8}
    (hb : b ∈ delimiters) (s : List UInt8) : Delimits (pad ++ b :: s) := by
  cases pad with
  | nil => exact .cons hb s
  | cons c pad => exact .cons (mem_delimiters_of_isSpace (hpad c List.mem_cons_self)) _

theorem delimits_spaces {pad : List UInt8} (hpad : Spaces pad) : Delimits pad := by
  cases pad with
  | nil => exact .nil
  | cons c pad => exact .cons (mem_delimiters_of_isSpace (hpad c List.mem_cons_self)) _

theorem not_mem_delimiters_of_isDigit {b : UInt8} (h : isDigit b = true) : b ∉ delimiters := by
  have hall : forall c, c ∈ delimiters -> isDigit c = false := by decide +kernel
  intro hb
  rw [hall b hb] at h
  cases h

theorem IsNumber.exists_cons {text : List UInt8} (h : IsNumber text) :
    exists d rest, text = d :: rest ∧ isDigit d = true := by
  rcases h with ⟨hwhole, hfraction, hexponent⟩
  cases hwhole with
  | zero => exact ⟨_, _, rfl, by decide⟩
  | digits hd hne h => exact ⟨_, _, rfl, hd⟩

theorem IsScalar.exists_cons {text : List UInt8} (h : IsScalar text) :
    exists b rest, text = b :: rest ∧ b ∉ delimiters := by
  cases h with
  | null => exact ⟨_, _, rfl, by decide⟩
  | true => exact ⟨_, _, rfl, by decide⟩
  | false => exact ⟨_, _, rfl, by decide⟩
  | number h =>
    rcases h.exists_cons with ⟨d, rest, rfl, hd⟩
    exact ⟨d, rest, rfl, not_mem_delimiters_of_isDigit hd⟩
  | negative h => exact ⟨_, _, rfl, by decide⟩
  | string h => exact ⟨_, _, rfl, by decide⟩

theorem Spells.exists_cons {form : Form} {text : List UInt8} (h : Spells (.value form) text) :
    exists b rest, text = b :: rest ∧ b ∉ delimiters := by
  cases h with
  | scalar scalar => exact scalar.isScalar.exists_cons
  | list h => exact ⟨_, _, rfl, by decide⟩
  | object h => exact ⟨_, _, rfl, by decide⟩

theorem skipSpace_of_not_mem {b : UInt8} (h : b ∉ delimiters) (s : List UInt8) :
    skipSpace (b :: s) = b :: s := by
  apply skipSpace_of_not_isSpace
  rw [Bool.eq_false_iff]
  intro hspace
  exact h (mem_delimiters_of_isSpace hspace)

theorem skipSpace_first {pad space : List UInt8} (hpad : Spaces pad) (hspace : Spaces space)
    {b : UInt8} (hb : b ∉ delimiters) (s : List UInt8) :
    skipSpace (pad ++ (separator true ++ (space ++ b :: s))) = b :: s := by
  have hseparator : separator true = [] := rfl
  rw [hseparator, List.nil_append, skipSpace_append hpad, skipSpace_append hspace,
    skipSpace_of_not_mem hb]

theorem skipSpace_later {pad : List UInt8} (hpad : Spaces pad) (s : List UInt8) :
    skipSpace (pad ++ (separator false ++ s)) = byte ',' :: s := by
  rw [skipSpace_append hpad]
  rfl

theorem Spells.delimits_items {items : List Form} {s : List UInt8}
    (h : Spells (.items false items) s) (rest : List UInt8) : Delimits (s ++ rest) := by
  cases h with
  | closeList _ hpad =>
    rw [List.append_assoc]
    exact delimits_append hpad (by decide) rest
  | item _ hpad hspace hform h =>
    rw [List.append_assoc]
    exact delimits_append hpad (by decide) _

theorem Spells.delimits_members {members : List (Key × Form)} {s : List UInt8}
    (h : Spells (.members false members) s) (rest : List UInt8) : Delimits (s ++ rest) := by
  cases h with
  | closeObject _ hpad =>
    rw [List.append_assoc]
    exact delimits_append hpad (by decide) rest
  | member _ hpad hspace hbefore hafter hform h =>
    rw [List.append_assoc]
    exact delimits_append hpad (by decide) _

end Json
end RestClient
