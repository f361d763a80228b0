import RestClient.Json.Record
import RestClient.Proofs.Reading

/-!
# Decoding records

What a record makes of the members of an object is a fold over them, in which the members may
change places: each field is set by the one member of its name, and a second one of the same name
is refused.
-/

namespace RestClient
namespace Json

open Reader

variable {α : Type} {types : List Type}

/-!
## Keys
-/

/-- The key's name, its escapes resolved; a key with a lone surrogate has none. -/
def Key.name? (key : Key) : Option String := found (stringBody (key.raw ++ [byte '"']))

theorem Key.yields (key : Key) (rest : List UInt8) :
    Yields key.name? rest (stringBody (key.raw ++ byte '"' :: rest)) := by
  rcases exists_stringBody key.isContent with ⟨value, hvalue⟩
  have hname : key.name? = value := (hvalue []).found_eq
  rw [hname]
  exact hvalue rest

theorem nextKey_close (first : Bool) {pad : List UInt8} (hpad : Spaces pad)
    (rest : List UInt8) :
    nextKey first (pad ++ [byte '\x7d'] ++ rest) = .ok (none, byte '\x7d' :: rest) := by
  unfold nextKey
  rw [List.append_assoc, skipSpace_append hpad]
  rfl

theorem nextKey_quote (first : Bool) {pad space : List UInt8} (hpad : Spaces pad)
    (hspace : Spaces space) (s : List UInt8) :
    nextKey first (pad ++ (separator first ++ (space ++ byte '"' :: s))) =
      mapRead some (stringBody s) := by
  have hquote : byte '"' ∉ delimiters := by decide
  unfold nextKey
  cases first with
  | true =>
    rw [skipSpace_first hpad hspace hquote]
    rfl
  | false =>
    rw [skipSpace_later hpad]
    dsimp only
    rw [skipSpace_append hspace, skipSpace_of_not_mem hquote]
    rfl

theorem colon_append {before : List UInt8} (hbefore : Spaces before) (s : List UInt8) :
    colon (before ++ byte ':' :: s) = .ok s := by
  unfold colon
  rw [skipSpace_append hbefore]
  rfl

theorem Spells.length_members_le {first : Bool} {members : List (Key × Form)} {s : List UInt8}
    (h : Spells (.members first members) s) : members.length ≤ s.length := by
  induction members generalizing first s with
  | nil => exact Nat.zero_le _
  | cons member members ih =>
    cases h with
    | member _ hpad hspace hbefore hafter hform h =>
      have hlength := ih h
      simp only [List.length_append, List.length_cons]
      omega

theorem found_mapRead {β : Type} (f : α -> β) (result : Except Failure (α × List UInt8)) :
    found (mapRead f result) = (found result).map f := by
  cases result <;> rfl

def Slots.cons (slot : Option α) (slots : Slots types) : Slots (α :: types) := (slot, slots)

theorem Slots.exists_cons (slots : Slots (α :: types)) :
    exists slot after, slots = Slots.cons slot after :=
  ⟨slots.1, slots.2, rfl⟩

namespace Fields

def names : {types : List Type} -> Fields types -> List String
  | _, .nil => []
  | _, .cons name _ _ rest => name :: rest.names

inductive AreSteady : {types : List Type} -> Fields types -> Prop where
  | nil : AreSteady .nil
  | cons {α : Type} {types : List Type} {decoder : Decoder α} {rest : Fields types} (name : String)
      (fallback : Option α) (hdecoder : Steady decoder) (h : AreSteady rest) :
      AreSteady (.cons name decoder fallback rest)

/-!
## Members
-/

def place (allowance : Nat) :
    {types : List Type} -> Fields types -> String -> Form -> Slots types -> Option (Slots types)
  | _, .nil, _, _, slots => some slots
  | _, .cons name decoder _ rest, key, form, (slot, slots) =>
    if key = name then
      match slot with
      | some _ => none
      | none => (valueOf decoder allowance form).map fun a => .cons (some a) slots
    else (place allowance rest key form slots).map (Slots.cons slot)

def placed (fields : Fields types) (allowance : Nat) (slots : Option (Slots types))
    (member : Key × Form) : Option (Slots types) :=
  member.1.name?.bind fun name => slots.bind (fields.place allowance name member.2)

def take (fields : Fields types) (allowance : Nat) (slots : Option (Slots types))
    (members : List (Key × Form)) : Option (Slots types) :=
  members.foldl (fields.placed allowance) slots

section Place

variable {rest : Fields types} {decoder : Decoder α} {fallback : Option α} {name key : String}

theorem place_of_eq (h : key = name) (allowance : Nat) (form : Form) (slots : Slots types) :
    place allowance (.cons name decoder fallback rest) key form (.cons none slots) =
      (valueOf decoder allowance form).map fun a => .cons (some a) slots :=
  if_pos h

theorem place_of_eq_some (h : key = name) (allowance : Nat) (form : Form) (a : α)
    (slots : Slots types) :
    place allowance (.cons name decoder fallback rest) key form (.cons (some a) slots) = none :=
  if_pos h

theorem place_of_ne (h : key ≠ name) (allowance : Nat) (form : Form) (slot : Option α)
    (slots : Slots types) :
    place allowance (.cons name decoder fallback rest) key form (.cons slot slots) =
      (rest.place allowance key form slots).map (Slots.cons slot) :=
  if_neg h

theorem place_congr {allowance : Nat} {form form' : Form}
    (h : valueOf decoder allowance form = valueOf decoder allowance form')
    (slots : Slots (α :: types)) :
    place allowance (.cons name decoder fallback rest) name form slots =
      place allowance (.cons name decoder fallback rest) name form' slots := by
  rcases slots.exists_cons with ⟨slot, slots, rfl⟩
  cases slot with
  | some a => rw [place_of_eq_some rfl, place_of_eq_some rfl]
  | none => rw [place_of_eq rfl, place_of_eq rfl, h]

theorem place_of_none {allowance : Nat} {form : Form}
    (h : valueOf decoder allowance form = none) (slots : Slots (α :: types)) :
    place allowance (.cons name decoder fallback rest) name form slots = none := by
  rcases slots.exists_cons with ⟨slot, slots, rfl⟩
  cases slot with
  | some a => exact place_of_eq_some rfl allowance form a slots
  | none =>
    rw [place_of_eq rfl, h]
    rfl

end Place

theorem place_of_not_mem {fields : Fields types} {key : String} (h : key ∉ fields.names)
    (allowance : Nat) (form : Form) (slots : Slots types) :
    fields.place allowance key form slots = some slots := by
  induction fields with
  | nil => rfl
  | cons name decoder fallback rest ih =>
    rcases slots.exists_cons with ⟨slot, slots, rfl⟩
    rw [place_of_ne (List.ne_of_not_mem_cons h), ih (List.not_mem_of_not_mem_cons h)]
    rfl

/-- A field takes one value only. -/
theorem place_place_of_mem {fields : Fields types} {key : String} (h : key ∈ fields.names)
    (allowance : Nat) (form form' : Form) (slots : Slots types) :
    (fields.place allowance key form slots).bind (fields.place allowance key form') = none := by
  induction fields with
  | nil => cases h
  | cons name decoder fallback rest ih =>
    rcases slots.exists_cons with ⟨slot, slots, rfl⟩
    by_cases hname : key = name
    · cases slot with
      | some a =>
        rw [place_of_eq_some hname]
        rfl
      | none =>
        rw [place_of_eq hname]
        cases valueOf decoder allowance form with
        | none => rfl
        | some a => exact place_of_eq_some hname allowance form' a slots
    · have hrest := ih ((List.mem_cons.mp h).resolve_left hname) slots
      rw [place_of_ne hname, Option.bind_map]
      cases hplace : rest.place allowance key form slots with
      | none => rfl
      | some after =>
        rw [hplace] at hrest
        change place allowance (.cons name decoder fallback rest) key form' (.cons slot after) = _
        rw [place_of_ne hname, show rest.place allowance key form' after = none from hrest]
        rfl

theorem place_comm_of_eq {decoder : Decoder α} {name key key' : String} (h : key = name)
    (h' : key' ≠ name) (fallback : Option α) (rest : Fields types) (allowance : Nat)
    (form form' : Form) (slots : Slots (α :: types)) :
    (place allowance (.cons name decoder fallback rest) key form slots).bind
        (place allowance (.cons name decoder fallback rest) key' form') =
      (place allowance (.cons name decoder fallback rest) key' form' slots).bind
        (place allowance (.cons name decoder fallback rest) key form) := by
  rcases slots.exists_cons with ⟨slot, slots, rfl⟩
  rw [place_of_ne h']
  cases slot with
  | some a =>
    rw [place_of_eq_some h]
    cases rest.place allowance key' form' slots with
    | none => rfl
    | some after => exact (place_of_eq_some h allowance form a after).symm
  | none =>
    rw [place_of_eq h, Option.bind_map, Option.bind_map]
    simp only [Function.comp_def, place_of_eq h, place_of_ne h']
    cases valueOf decoder allowance form <;>
      cases rest.place allowance key' form' slots <;> rfl

theorem place_comm (fields : Fields types) (allowance : Nat) (key key' : String)
    (form form' : Form) (slots : Slots types) :
    (fields.place allowance key form slots).bind (fields.place allowance key' form') =
      (fields.place allowance key' form' slots).bind (fields.place allowance key form) := by
  induction fields with
  | nil => rfl
  | cons name decoder fallback rest ih =>
    by_cases hname : key = name
    · by_cases hname' : key' = name
      · have hmem : name ∈ (Fields.cons name decoder fallback rest).names := List.mem_cons_self
        rw [hname, hname', place_place_of_mem hmem, place_place_of_mem hmem]
      · exact place_comm_of_eq hname hname' fallback rest allowance form form' slots
    · by_cases hname' : key' = name
      · exact (place_comm_of_eq hname' hname fallback rest allowance form' form slots).symm
      · rcases slots.exists_cons with ⟨slot, slots, rfl⟩
        have hrest := congrArg (Option.map (Slots.cons slot)) (ih slots)
        rw [place_of_ne hname, place_of_ne hname', Option.bind_map, Option.bind_map]
        simpa only [Function.comp_def, place_of_ne hname, place_of_ne hname', Option.map_bind]
          using hrest

theorem placed_comm (fields : Fields types) (allowance : Nat) (slots : Option (Slots types))
    (member member' : Key × Form) :
    fields.placed allowance (fields.placed allowance slots member) member' =
      fields.placed allowance (fields.placed allowance slots member') member := by
  unfold placed
  cases member.1.name? with
  | none => simp
  | some key =>
    cases member'.1.name? with
    | none => simp
    | some key' =>
      cases slots with
      | none => rfl
      | some slots => exact place_comm fields allowance key key' member.2 member'.2 slots

theorem take_perm {members members' : List (Key × Form)} (h : members.Perm members')
    (fields : Fields types) (allowance : Nat) (slots : Option (Slots types)) :
    fields.take allowance slots members = fields.take allowance slots members' :=
  h.foldl_eq' (fun _ _ _ _ _ => placed_comm fields allowance _ _ _) slots

theorem take_append (fields : Fields types) (allowance : Nat) (slots : Option (Slots types))
    (members members' : List (Key × Form)) :
    fields.take allowance slots (members ++ members') =
      fields.take allowance (fields.take allowance slots members) members' :=
  List.foldl_append

theorem take_none (fields : Fields types) (allowance : Nat) (members : List (Key × Form)) :
    fields.take allowance none members = none := by
  induction members with
  | nil => rfl
  | cons member members ih =>
    have hplaced : fields.placed allowance none member = none := by
      unfold placed
      cases member.1.name? <;> rfl
    exact (congrArg (fields.take allowance · members) hplaced).trans ih

/-- The member has a name, and no field has it. -/
def IsUndeclared (names : List String) (member : Key × Form) : Prop :=
  exists name, member.1.name? = some name ∧ name ∉ names

theorem take_of_undeclared {fields : Fields types} {members : List (Key × Form)}
    (h : forall member, member ∈ members -> IsUndeclared fields.names member) (allowance : Nat)
    (slots : Option (Slots types)) : fields.take allowance slots members = slots := by
  induction members with
  | nil => rfl
  | cons member members ih =>
    rcases h member List.mem_cons_self with ⟨name, hname, hmem⟩
    have hplaced : fields.placed allowance slots member = slots := by
      unfold placed
      rw [hname]
      cases slots with
      | none => rfl
      | some slots => exact place_of_not_mem hmem allowance member.2 slots
    have hrest := ih fun m hm => h m (List.mem_cons_of_mem member hm)
    exact (congrArg (fields.take allowance · members) hplaced).trans hrest

theorem take_of_spoiled {fields : Fields types} {allowance : Nat} {member : Key × Form}
    (h : forall slots, fields.placed allowance slots member = none) {members : List (Key × Form)}
    (hmem : member ∈ members) (slots : Option (Slots types)) :
    fields.take allowance slots members = none := by
  rcases List.append_of_mem hmem with ⟨front, back, rfl⟩
  rw [take_append]
  exact (congrArg (fields.take allowance · back) (h _)).trans (take_none fields allowance back)

/-- Two of the members, at different places, have the name. -/
inductive Repeats (name : String) (members : List (Key × Form)) : Prop where
  | mk {member member' : Key × Form} (h : [member, member'].Sublist members)
      (hname : member.1.name? = some name) (hname' : member'.1.name? = some name)

theorem take_of_repeats {fields : Fields types} {name : String} (hname : name ∈ fields.names)
    {members : List (Key × Form)} (h : Repeats name members) (allowance : Nat)
    (slots : Option (Slots types)) : fields.take allowance slots members = none := by
  rcases h with @⟨member, member', hsub, hmember, hmember'⟩
  rcases hsub.exists_perm_append with ⟨others, hperm⟩
  have hplaced : fields.placed allowance (fields.placed allowance slots member) member' =
      none := by
    unfold placed
    rw [hmember, hmember']
    cases slots with
    | none => rfl
    | some slots => exact place_place_of_mem hname allowance member.2 member'.2 slots
  rw [take_perm hperm, take_append]
  exact (congrArg (fields.take allowance · others) hplaced).trans
    (take_none fields allowance others)

/-!
## Reading the members
-/

inductive Matches {σ : Type} (place : Nat -> Form -> Option σ) (slots : σ) : Entry σ -> Prop where
  | undeclared (h : forall allowance form, place allowance form = some slots) :
      Matches place slots .undeclared
  | repeated (h : forall allowance form, place allowance form = none) :
      Matches place slots .repeated
  | field {decoder : Decoder σ} (hdecoder : Steady decoder)
      (h : forall allowance form, valueOf decoder allowance form = place allowance form) :
      Matches place slots (.field decoder)

theorem Matches.map {σ τ : Type} {place : Nat -> Form -> Option σ} {slots : σ} {entry : Entry σ}
    (h : Matches place slots entry) (f : σ -> τ) :
    Matches (fun allowance form => (place allowance form).map f) (f slots) (entry.map f) := by
  cases h with
  | undeclared h =>
    apply Matches.undeclared
    intro allowance form
    rw [h]
    rfl
  | repeated h =>
    apply Matches.repeated
    intro allowance form
    rw [h]
    rfl
  | field hdecoder h =>
    refine Matches.field (hdecoder.mapRead f) ?_
    intro allowance form
    rw [← h]
    exact found_mapRead f _

theorem AreSteady.matches {fields : Fields types} (h : fields.AreSteady) (key : String)
    (slots : Slots types) :
    Matches (fun allowance form => fields.place allowance key form slots) slots
      (fields.entry slots key) := by
  induction h with
  | nil => exact .undeclared fun _ _ => rfl
  | @cons α types decoder rest name fallback hdecoder h ih =>
    rcases slots.exists_cons with ⟨slot, slots, rfl⟩
    by_cases hname : key = name
    · cases slot with
      | some a =>
        have hentry : (Fields.cons name decoder fallback rest).entry (Slots.cons (some a) slots)
            key = .repeated := if_pos hname
        rw [hentry]
        exact .repeated fun allowance form => place_of_eq_some hname allowance form a slots
      | none =>
        have hentry : (Fields.cons name decoder fallback rest).entry (Slots.cons none slots)
            key = .field fun allowance s =>
              mapRead (fun a => Slots.cons (some a) slots) (decoder allowance s) := if_pos hname
        rw [hentry]
        refine .field (hdecoder.mapRead _) ?_
        intro allowance form
        exact (found_mapRead _ _).trans (place_of_eq hname allowance form slots).symm
    · have hentry : (Fields.cons name decoder fallback rest).entry (Slots.cons slot slots) key =
          (rest.entry slots key).map (Slots.cons slot) := if_neg hname
      rw [hentry]
      simp only [place_of_ne hname]
      exact (ih slots).map (Slots.cons slot)

/-- The value and the rest of the text; where there is no value, the reader fails or finds a
fault. -/
def Comes {β ε : Type} (value : Option β) (rest : List UInt8)
    (result : Except Failure (Except ε β × List UInt8)) : Prop :=
  match value with
  | some b => result = .ok (.ok b, rest)
  | none => forall b r, result ≠ .ok (.ok b, r)

theorem Comes.eq_ok {β ε : Type} {b : β} {rest : List UInt8}
    {result : Except Failure (Except ε β × List UInt8)} (h : Comes (some b) rest result) :
    result = .ok (.ok b, rest) :=
  h

theorem comes_error {β ε : Type} (rest : List UInt8) (f : Failure) :
    Comes (none : Option β) rest (.error f : Except Failure (Except ε β × List UInt8)) := by
  intro b r h
  cases h

theorem comes_fault {β ε : Type} (rest : List UInt8) (fault : ε) (r : List UInt8) :
    Comes (none : Option β) rest (.ok (.error fault, r)) := by
  intro b r h
  cases h

theorem comes_ofObject {fields : Fields types} (hfields : fields.AreSteady) (allowance : Nat)
    {first : Bool} {members : List (Key × Form)} {s : List UInt8}
    (h : Spells (.members first members) s) (rest : List UInt8) {fuel : Nat}
    (hfuel : members.length ≤ fuel) (slots : Slots types) :
    Comes (fields.take allowance (some slots) members) (byte '\x7d' :: rest)
      (fields.ofObject allowance fuel first slots (s ++ rest)) := by
  induction members generalizing first s fuel slots with
  | nil =>
    cases h with
    | closeObject _ hpad =>
      unfold ofObject
      rw [nextKey_close first hpad]
      rfl
  | cons member members ih =>
    cases h with
    | @member _ pad space before after text s key form _ hpad hspace hbefore hafter hform h =>
      rcases fuel with - | fuel
      · cases hfuel
      · have hmore := ih h (Nat.le_of_succ_le_succ hfuel)
        have htext : pad ++ (separator first ++ (space ++ (byte '"' :: (key.raw ++ (byte '"' ::
            (before ++ (byte ':' :: (after ++ (text ++ s))))))))) ++ rest =
            pad ++ (separator first ++ (space ++ byte '"' :: (key.raw ++ byte '"' ::
              (before ++ byte ':' :: (after ++ (text ++ (s ++ rest))))))) := by
          simp
        have hkey := key.yields (before ++ byte ':' :: (after ++ (text ++ (s ++ rest))))
        unfold ofObject
        rw [htext, nextKey_quote first hpad hspace]
        change Comes (fields.take allowance (fields.placed allowance (some slots) (key, form))
          members) _ _
        unfold placed
        cases hname : key.name? with
        | none =>
          rw [hname] at hkey
          rcases hkey with ⟨failure, hfailure⟩
          rw [hfailure, Option.bind_none, take_none]
          exact comes_error _ failure
        | some name =>
          rw [hname] at hkey
          rw [hkey.eq_ok]
          have hmatches := hfields.matches name slots
          dsimp only [mapRead, Option.bind_some]
          rw [colon_append hbefore]
          -- What follows the key depends on what the record has under its name.
          generalize fields.entry slots name = entry at hmatches
          cases hmatches with
          | undeclared hplace =>
            have hskip := skip_of_spells hafter hform (h.delimits_members rest)
            rw [hplace allowance form]
            dsimp only
            rw [hskip]
            exact hmore slots
          | repeated hplace =>
            rw [hplace allowance form, take_none]
            exact comes_fault _ _ _
          | field hdecoder hplace =>
            have hread := hdecoder.reads allowance form hafter hform (h.delimits_members rest)
            rw [hplace allowance form] at hread
            cases hvalue : fields.place allowance name form slots with
            | none =>
              rw [hvalue] at hread
              rcases hread with ⟨failure, hfailure⟩
              rw [take_none]
              dsimp only
              rw [hfailure]
              exact comes_error _ failure
            | some slots =>
              rw [hvalue] at hread
              dsimp only
              rw [hread.eq_ok]
              exact hmore slots

/-!
## Fields by position
-/

def Lists (outcome : Option (Values types × Bool × List Form)) (rest : List UInt8)
    (result : Except Failure (Except Nat (Values types) × List UInt8)) : Prop :=
  match outcome with
  | some (values, first, items) => exists s, Spells (.items first items) s ∧
      result = .ok (.ok values, s ++ rest)
  | none => forall values r, result ≠ .ok (.ok values, r)

theorem Lists.cons {outcome : Option (Values types × Bool × List Form)} {rest : List UInt8}
    {result : Except Failure (Except Nat (Values types) × List UInt8)}
    (h : Lists outcome rest result) (a : α) :
    @Lists (α :: types) (outcome.map fun found => ((a, found.1), found.2)) rest
      (mapRead (fun values => values.map (a, ·)) result) := by
  cases outcome with
  | some found =>
    rcases h with ⟨s, hs, hresult⟩
    refine ⟨s, hs, ?_⟩
    rw [hresult]
    rfl
  | none =>
    intro values r hvalues
    rcases result with failure | ⟨length | values, r⟩
    · cases hvalues
    · cases hvalues
    · exact h values r rfl

theorem AreSteady.exists_lists {fields : Fields types} (h : fields.AreSteady) (allowance : Nat)
    (first : Bool) (items : List Form) :
    exists outcome, forall index s rest, Spells (.items first items) s ->
      Lists outcome rest (fields.ofList allowance index first (s ++ rest)) := by
  induction h generalizing first items with
  | nil =>
    refine ⟨some ((), first, items), ?_⟩
    intro index s rest hs
    exact ⟨s, hs, rfl⟩
  | @cons α types decoder others name fallback hdecoder h ih =>
    cases items with
    | nil =>
      cases fallback with
      | none =>
        refine ⟨none, ?_⟩
        intro index s rest hs
        cases hs with
        | closeList _ hpad =>
          unfold ofList
          rw [nextItem_close first hpad]
          intro values r hvalues
          cases hvalues
      | some a =>
        rcases ih first [] with ⟨outcome, houtcome⟩
        refine ⟨outcome.map fun found => ((a, found.1), found.2), ?_⟩
        intro index s rest hs
        cases hs with
        | closeList _ hpad =>
          -- The bracket stays, so that the next field finds it again.
          have hmore := houtcome (index + 1) _ rest (.closeList first spaces_nil)
          unfold ofList
          rw [nextItem_close first hpad]
          exact hmore.cons a
    | cons form items =>
      cases hvalue : valueOf decoder allowance form with
      | none =>
        refine ⟨none, ?_⟩
        intro index s rest hs
        cases hs with
        | @item _ pad space text s _ _ hpad hspace hform hs =>
          have hread := hdecoder.reads allowance form spaces_nil hform (hs.delimits_items rest)
          rw [hvalue, List.nil_append] at hread
          rcases hread with ⟨failure, hfailure⟩
          unfold ofList
          rw [nextItem_item first hpad hspace hform]
          dsimp only
          rw [hfailure]
          intro values r hvalues
          cases hvalues
      | some a =>
        rcases ih false items with ⟨outcome, houtcome⟩
        refine ⟨outcome.map fun found => ((a, found.1), found.2), ?_⟩
        intro index s rest hs
        cases hs with
        | @item _ pad space text s _ _ hpad hspace hform hs =>
          have hread := hdecoder.reads allowance form spaces_nil hform (hs.delimits_items rest)
          rw [hvalue, List.nil_append] at hread
          have hmore := houtcome (index + 1) s rest hs
          unfold ofList
          rw [nextItem_item first hpad hspace hform]
          dsimp only
          rw [hread.eq_ok]
          exact hmore.cons a

end Fields

theorem closeList_nil {first : Bool} {s : List UInt8} (h : Spells (.items first []) s)
    (rest : List UInt8) : closeList (s ++ rest) = .ok rest := by
  cases h with
  | closeList _ hpad =>
    unfold closeList
    rw [List.append_assoc, skipSpace_append hpad]
    rfl

theorem closeList_cons {first : Bool} {form : Form} {items : List Form} {s : List UInt8}
    (h : Spells (.items first (form :: items)) s) (rest : List UInt8) :
    exists f, closeList (s ++ rest) = .error f := by
  cases h with
  | @item _ pad space text s _ _ hpad hspace hform h =>
    rcases hform.exists_cons with ⟨b, r, rfl, hb⟩
    have hclose : b ≠ byte ']' := by
      rintro rfl
      exact hb (by decide)
    have hcomma : b ≠ byte ',' := by
      rintro rfl
      exact hb (by decide)
    have htext : pad ++ (separator first ++ (space ++ (b :: r ++ s))) ++ rest =
        pad ++ (separator first ++ (space ++ b :: (r ++ (s ++ rest)))) := by
      simp
    rw [htext]
    unfold closeList
    cases first with
    | true =>
      rw [skipSpace_first hpad hspace hb]
      simp [hclose, hcomma, failPast]
    | false =>
      have hmark : byte ',' ≠ byte ']' := by decide
      rw [skipSpace_later hpad]
      dsimp only
      rw [skipSpace_append hspace, skipSpace_of_not_mem hb]
      simp [hclose, hmark, failPast]

namespace Record

theorem failClosed_error {β : Type} (fault : Fault) (close : UInt8) (s : List UInt8) :
    exists f, (failClosed fault close s : Except Failure β) = .error f := by
  unfold failClosed
  split
  · exact ⟨_, rfl⟩
  · split <;> exact ⟨_, rfl⟩

def valueOfMembers (record : Record types α) (allowance : Nat) (members : List (Key × Form)) :
    Option α :=
  (record.fields.take allowance (some record.fields.empty) members).bind fun slots =>
    (record.fields.fill slots).toOption.map record.build

theorem reads_object {record : Record types α} (h : record.fields.AreSteady) (allowance : Nat)
    (members : List (Key × Form)) :
    Reads record.decoder (allowance + 1) (.object members)
      (record.valueOfMembers allowance members) := by
  intro pad text rest hpad htext hrest
  cases htext with
  | @object _ s hmembers =>
    have hfuel : members.length ≤ (s ++ rest).length := by
      rw [List.length_append]
      exact Nat.le_add_right_of_le hmembers.length_members_le
    have hcomes := Fields.comes_ofObject h allowance hmembers rest hfuel record.fields.empty
    unfold decoder valueOfMembers
    rw [token_append hpad]
    change Yields _ _ (record.ofObject allowance (s ++ rest))
    unfold ofObject
    cases htake : record.fields.take allowance (some record.fields.empty) members with
    | some slots =>
      rw [htake] at hcomes
      rw [hcomes.eq_ok, Option.bind_some]
      dsimp only
      cases record.fields.fill slots with
      | ok values => rfl
      | error missing => exact failClosed_error _ _ _
    | none =>
      rw [htake] at hcomes
      rcases hresult : record.fields.ofObject allowance (s ++ rest).length true
        record.fields.empty (s ++ rest) with failure | ⟨fault | slots, r⟩
      · exact ⟨failure, rfl⟩
      · exact failClosed_error _ _ _
      · exact absurd hresult (hcomes slots r)

theorem exists_reads_list {record : Record types α} (h : record.fields.AreSteady)
    (allowance : Nat) (items : List Form) :
    exists value, Reads record.decoder (allowance + 1) (.list items) value := by
  rcases h.exists_lists allowance true items with ⟨outcome, houtcome⟩
  -- The items have to end where the fields do.
  refine ⟨outcome.bind fun found =>
    if found.2.2.isEmpty then some (record.build found.1) else none, ?_⟩
  intro pad text rest hpad htext hrest
  cases htext with
  | @list _ s hitems =>
    have hlists := houtcome 0 s rest hitems
    unfold decoder
    rw [token_append hpad]
    change Yields _ _ (record.ofList allowance (s ++ rest))
    unfold ofList
    cases outcome with
    | some found =>
      rcases found with ⟨values, first, left⟩
      rcases hlists with ⟨s', hs', hresult⟩
      rw [hresult]
      cases left with
      | nil =>
        dsimp only
        rw [closeList_nil hs']
        rfl
      | cons form left =>
        rcases closeList_cons hs' rest with ⟨failure, hfailure⟩
        dsimp only
        rw [hfailure]
        exact ⟨failure, rfl⟩
    | none =>
      rcases hresult : record.fields.ofList allowance 0 true (s ++ rest)
        with failure | ⟨length | values, r⟩
      · exact ⟨failure, rfl⟩
      · exact failClosed_error _ _ _
      · exact absurd hresult (hlists values r)

theorem steady {record : Record types α} (h : record.fields.AreSteady) :
    Steady record.decoder := by
  intro allowance form
  cases form with
  | scalar scalar =>
    refine ⟨none, reads_none_of_scalar ?_ ?_ scalar⟩
    · intro s f hs
      unfold decoder
      rw [hs]
      exact ⟨_, rfl⟩
    · intro s t r hs hne
      unfold decoder
      rw [hs]
      cases t <;> first | exact ⟨_, rfl⟩ | exact absurd rfl hne.1 | exact absurd rfl hne.2
  | list items =>
    cases allowance with
    | zero =>
      refine ⟨none, ?_⟩
      intro pad text rest hpad htext hrest
      cases htext
      unfold decoder
      rw [token_append hpad]
      exact ⟨_, rfl⟩
    | succ allowance => exact exists_reads_list h allowance items
  | object members =>
    cases allowance with
    | zero =>
      refine ⟨none, ?_⟩
      intro pad text rest hpad htext hrest
      cases htext
      unfold decoder
      rw [token_append hpad]
      exact ⟨_, rfl⟩
    | succ allowance => exact ⟨_, reads_object h allowance members⟩

end Record
end Json
end RestClient
