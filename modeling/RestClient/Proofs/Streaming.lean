import RestClient.Proofs.Intake
import RestClient.Sample

/-!
# Streams of items

Taking the items of a listing one by one.  A failed step leaves the listing as the last received
page put it, so that whatever goes wrong, the items handed out are those of the received pages in
their order, none of them lost or repeated.
-/

namespace RestClient
namespace Listing

variable {σ α : Type} [Transport σ] [Json.Decode α] {listing next begun : Listing α}
  {page : UInt32} {w w' : World σ}

/-!
## Single steps
-/

def absorb (listing : Listing α) (page : UInt32) (received : Page α) : Listing α :=
  { listing with
    paginator := (listing.paginator.accept page received).2
    buffer := listing.buffer ++ (listing.paginator.accept page received).1 }

def ask (listing : Listing α) (page : UInt32) (w : World σ) :
    Except Halt (Response (Page α)) × World σ :=
  listing.client.call (listing.request.forPage page listing.paginator.pageSize) none w

theorem fetch_of_error {halt : Halt} (h : listing.ask page w = (.error halt, w')) :
    listing.fetch page w = (.error halt, w') := by
  unfold ask at h
  unfold fetch
  dsimp only
  rw [h]

theorem fetch_of_ok {response : Response (Page α)} (h : listing.ask page w = (.ok response, w')) :
    listing.fetch page w =
      (.ok (listing.absorb page response.data),
        w'.report (.fetched listing.request.path response.data.descriptor)) := by
  unfold ask at h
  unfold fetch
  dsimp only
  rw [h]
  rfl

theorem nextWithin_congr {fuel fuel' : Nat} (hfuel : listing.pagesLeft ≤ fuel)
    (hfuel' : listing.pagesLeft ≤ fuel') (w : World σ) :
    nextWithin fuel listing w = nextWithin fuel' listing w := by
  induction fuel generalizing fuel' listing w with
  | zero =>
    unfold nextWithin
    cases listing.buffer with
    | cons item rest => rfl
    | nil =>
      cases hpage : listing.paginator.nextPage with
      | none => rfl
      | some page =>
        have hleft := pagesLeft_pos hpage
        omega
  | succ fuel ih =>
    unfold nextWithin
    cases listing.buffer with
    | cons item rest => rfl
    | nil =>
      cases hpage : listing.paginator.nextPage with
      | none => rfl
      | some page =>
        have hleft := pagesLeft_pos hpage
        rcases fuel' with _ | fuel'
        · omega
        dsimp only
        rcases hfetch : listing.fetch page w with ⟨halt | next, w'⟩
        · rfl
        · have hless := pagesLeft_fetch hpage hfetch
          exact ih (by omega) (by omega) w'

theorem next_of_buffer {item : α} {rest : List α} (hbuffer : listing.buffer = item :: rest)
    (w : World σ) : listing.next w = (.ok (some item), { listing with buffer := rest }, w) := by
  unfold next nextWithin
  rw [hbuffer]

theorem next_of_ended (hbuffer : listing.buffer = []) (hpage : listing.paginator.nextPage = none)
    (w : World σ) : listing.next w = (.ok none, listing, w) := by
  unfold next nextWithin
  rw [hbuffer, hpage]

def nextAfter (listing : Listing α) :
    Except Halt (Listing α) × World σ -> Except Halt (Option α) × Listing α × World σ
  | (.error halt, w) => (.error halt, listing, w)
  | (.ok following, w) => following.next w

theorem next_of_page (hbuffer : listing.buffer = [])
    (hpage : listing.paginator.nextPage = some page) (w : World σ) :
    listing.next w = listing.nextAfter (listing.fetch page w) := by
  have hleft := pagesLeft_pos hpage
  rcases hfuel : listing.pagesLeft with _ | left
  · omega
  unfold Listing.next
  rw [hfuel]
  conv => lhs; unfold nextWithin
  rw [hbuffer, hpage]
  dsimp only
  rcases hfetch : listing.fetch page w with ⟨halt | following, w'⟩
  · rfl
  · have hless := pagesLeft_fetch hpage hfetch
    exact nextWithin_congr (by omega) (Nat.le_refl _) w'

/-- What one step comes to, and the pages that are received in it with their numbers. -/
inductive Seeks : Listing α -> World σ -> List (UInt32 × Page α) ->
    Except Halt (Option α) × Listing α × World σ -> Prop where
  | item {listing : Listing α} {w : World σ} {item : α} {rest : List α}
      (hbuffer : listing.buffer = item :: rest) :
      Seeks listing w [] (.ok (some item), { listing with buffer := rest }, w)
  | ended {listing : Listing α} {w : World σ} (hbuffer : listing.buffer = [])
      (hpage : listing.paginator.nextPage = none) : Seeks listing w [] (.ok none, listing, w)
  | failed {listing : Listing α} {w w' : World σ} {page : UInt32} {halt : Halt}
      (hbuffer : listing.buffer = []) (hpage : listing.paginator.nextPage = some page)
      (hask : listing.ask page w = (.error halt, w')) :
      Seeks listing w [] (.error halt, listing, w')
  | page {listing : Listing α} {w w' : World σ} {page : UInt32} {response : Response (Page α)}
      {received : List (UInt32 × Page α)} {answer : Except Halt (Option α) × Listing α × World σ}
      (hbuffer : listing.buffer = []) (hpage : listing.paginator.nextPage = some page)
      (hask : listing.ask page w = (.ok response, w'))
      (hrest : Seeks (listing.absorb page response.data)
        (w'.report (.fetched listing.request.path response.data.descriptor)) received answer) :
      Seeks listing w ((page, response.data) :: received) answer

theorem exists_seeks (listing : Listing α) (w : World σ) :
    exists received, listing.Seeks w received (listing.next w) := by
  induction hleft : listing.pagesLeft using Nat.strongRecOn generalizing listing w with
  | ind left ih =>
    cases hbuffer : listing.buffer with
    | cons item rest =>
      rw [next_of_buffer hbuffer]
      exact ⟨[], .item hbuffer⟩
    | nil =>
      cases hpage : listing.paginator.nextPage with
      | none =>
        rw [next_of_ended hbuffer hpage]
        exact ⟨[], .ended hbuffer hpage⟩
      | some page =>
        rw [next_of_page hbuffer hpage]
        rcases hask : listing.ask page w with ⟨halt | response, w'⟩
        · rw [fetch_of_error hask]
          exact ⟨[], .failed hbuffer hpage hask⟩
        · have hfetch := fetch_of_ok hask
          have hless := pagesLeft_fetch hpage hfetch
          rcases ih _ (hleft ▸ hless) _ _ rfl with ⟨received, hseeks⟩
          rw [hfetch]
          exact ⟨_, .page hbuffer hpage hask hseeks⟩

theorem Seeks.failed_page {received : List (UInt32 × Page α)} {halt : Halt}
    (h : listing.Seeks w received (.error halt, next, w')) :
    next.buffer = [] ∧ exists page w₁, next.paginator.nextPage = some page ∧
      next.ask page w₁ = (.error halt, w') := by
  generalize hanswer : ((.error halt, next, w') : Except Halt (Option α) × Listing α × World σ) =
    answer at h
  induction h with
  | item hbuffer => cases hanswer
  | ended hbuffer hpage => cases hanswer
  | failed hbuffer hpage hask =>
    cases hanswer
    exact ⟨hbuffer, _, _, hpage, hask⟩
  | page _ _ _ _ ih => exact ih hanswer

theorem Seeks.ended_page {received : List (UInt32 × Page α)}
    (h : listing.Seeks w received (.ok none, next, w')) :
    next.buffer = [] ∧ next.paginator.nextPage = none := by
  generalize hanswer : ((.ok none, next, w') : Except Halt (Option α) × Listing α × World σ) =
    answer at h
  induction h with
  | item hbuffer => cases hanswer
  | ended hbuffer hpage =>
    cases hanswer
    exact ⟨hbuffer, hpage⟩
  | failed hbuffer hpage hask => cases hanswer
  | page _ _ _ _ ih => exact ih hanswer

/-!
## Sequences of steps
-/

def handedOut (results : List (Except Halt (Option α))) : List α :=
  results.filterMap fun
    | .ok item => item
    | .error _ => none

/-- Steps of a listing that has begun, each in any world: the pages that were received, the results
of the steps, and the listing behind them. -/
inductive Session (σ : Type) [Transport σ] (begun : Listing α) : List (UInt32 × Page α) ->
    List (Except Halt (Option α)) -> Listing α -> Prop where
  | begun : Session σ begun [] [] begun
  | step {received more : List (UInt32 × Page α)} {results : List (Except Halt (Option α))}
      {listing : Listing α} (hbefore : Session σ begun received results listing) (w : World σ)
      (hseeks : listing.Seeks w more (listing.next w)) :
      Session σ begun (received ++ more) (results ++ [(listing.next w).1]) (listing.next w).2.1

/-- Where a listing stands that has received these pages and handed out these items. -/
structure Standing (begun : Listing α) (received : List (UInt32 × Page α)) (handed : List α)
    (listing : Listing α) : Prop where
  client : listing.client = begun.client
  request : listing.request = begun.request
  paginator : listing.paginator = (begun.paginator.acceptAll received).2
  items : handed ++ listing.buffer = begun.buffer ++ (begun.paginator.acceptAll received).1
  follows : begun.paginator.Follows received

omit [Json.Decode α] in
theorem Standing.absorb {received : List (UInt32 × Page α)} {handed : List α}
    (h : Standing begun received handed listing) (hpage : listing.paginator.nextPage = some page)
    (data : Page α) :
    Standing begun (received ++ [(page, data)]) handed (listing.absorb page data) := by
  have hall := begun.paginator.acceptAll_append received [(page, data)]
  constructor
  · exact h.client
  · exact h.request
  · rw [hall, ← h.paginator]
    rfl
  · rw [hall, ← List.append_assoc, ← h.items, ← h.paginator, List.append_assoc]
    show handed ++ (listing.buffer ++ (listing.paginator.accept page data).1) =
      handed ++ (listing.buffer ++ ((listing.paginator.accept page data).1 ++ []))
    rw [List.append_nil]
  · rw [Paginator.follows_append, ← h.paginator]
    exact ⟨h.follows, hpage, trivial⟩

theorem Seeks.standing {received more : List (UInt32 × Page α)} {handed : List α}
    {answer : Except Halt (Option α) × Listing α × World σ} (h : listing.Seeks w more answer)
    (hstanding : Standing begun received handed listing) :
    Standing begun (received ++ more) (handed ++ handedOut [answer.1]) answer.2.1 := by
  induction h generalizing received with
  | @item listing w item rest hbuffer =>
    rw [List.append_nil]
    have hitems : (handed ++ [item]) ++ rest = handed ++ listing.buffer := by
      rw [hbuffer, List.append_assoc]
      rfl
    exact ⟨hstanding.client, hstanding.request, hstanding.paginator,
      hitems.trans hstanding.items, hstanding.follows⟩
  | ended _ _ =>
    rw [List.append_nil, show handedOut [Except.ok none] = ([] : List α) from rfl,
      List.append_nil]
    exact hstanding
  | failed _ _ _ =>
    rw [List.append_nil, show handedOut [Except.error _] = ([] : List α) from rfl,
      List.append_nil]
    exact hstanding
  | page _ hpage _ _ ih =>
    have hnext := ih (hstanding.absorb hpage _)
    rw [List.append_assoc] at hnext
    exact hnext

theorem Session.standing {received : List (UInt32 × Page α)}
    {results : List (Except Halt (Option α))} (h : begun.Session σ received results listing) :
    Standing begun received (handedOut results) listing := by
  induction h with
  | begun =>
    exact ⟨rfl, rfl, rfl, (List.append_nil _).symm, trivial⟩
  | step hbefore w hseeks ih =>
    have hnext := hseeks.standing ih
    unfold handedOut at hnext ⊢
    rw [List.filterMap_append]
    exact hnext

theorem Session.ended {received : List (UInt32 × Page α)}
    {results : List (Except Halt (Option α))} (h : begun.Session σ received results listing)
    (hended : .ok none ∈ results) :
    listing.buffer = [] ∧ listing.paginator.nextPage = none := by
  induction h with
  | begun => cases hended
  | @step received more results listing hbefore w hseeks ih =>
    rcases List.mem_append.mp hended with hearlier | hnow
    · rcases ih hearlier with ⟨hbuffer, hpage⟩
      rw [next_of_ended hbuffer hpage]
      exact ⟨hbuffer, hpage⟩
    · rcases hnext : listing.next w with ⟨result, following, w'⟩
      rw [hnext] at hseeks hnow
      cases List.mem_singleton.mp hnow
      exact hseeks.ended_page

theorem Session.nexts {received : List (UInt32 × Page α)}
    {results : List (Except Halt (Option α))} (h : begun.Session σ received results listing)
    (n : Nat) (w : World σ) :
    exists more, begun.Session σ (received ++ more) (results ++ (listing.nexts n w).1)
      (listing.nexts n w).2.1 := by
  induction n generalizing received results listing w with
  | zero =>
    refine ⟨[], ?_⟩
    unfold Listing.nexts
    rw [List.append_nil, List.append_nil]
    exact h
  | succ n ih =>
    rcases exists_seeks listing w with ⟨first, hseeks⟩
    rcases ih (.step h w hseeks) (listing.next w).2.2 with ⟨more, hsession⟩
    refine ⟨first ++ more, ?_⟩
    rw [List.append_assoc, List.append_assoc] at hsession
    exact hsession

/-!
## All remaining items
-/

theorem collectWithin_of_buffer {item : α} {rest : List α}
    (hbuffer : listing.buffer = item :: rest) (fuel : Nat) (w : World σ) :
    collectWithin fuel listing w =
      ((collectWithin fuel { listing with buffer := rest } w).1.map (item :: ·),
        (collectWithin fuel { listing with buffer := rest } w).2) := by
  induction fuel generalizing listing rest w with
  | zero =>
    unfold collectWithin
    rw [hbuffer]
    cases listing.paginator.nextPage with
    | none => rfl
    | some page => rfl
  | succ fuel ih =>
    unfold collectWithin
    dsimp only
    cases listing.paginator.nextPage with
    | none =>
      rw [hbuffer]
      rfl
    | some page =>
      dsimp only
      rcases hask : listing.ask page w with ⟨halt | response, w'⟩
      · have hrest : ({ listing with buffer := rest } : Listing α).ask page w = _ := hask
        rw [fetch_of_error hask, fetch_of_error hrest]
        rfl
      · have hrest : ({ listing with buffer := rest } : Listing α).ask page w = _ := hask
        have habsorbed : (listing.absorb page response.data).buffer =
            item :: (rest ++ (listing.paginator.accept page response.data).1) := by
          unfold absorb
          rw [hbuffer]
          rfl
        rw [fetch_of_ok hask, fetch_of_ok hrest]
        exact ih habsorbed _

/-- Collecting is taking items until none is left or a step fails. -/
theorem exists_nexts_collect (listing : Listing α) (w : World σ) :
    exists items last final w',
      listing.nexts (items.length + 1) w =
          (items.map (fun item => .ok (some item)) ++ [last], final, w') ∧
        listing.collect w = (last.map fun _ => items, w') ∧
          forall item, last ≠ .ok (some item) := by
  induction hleft : listing.pagesLeft using Nat.strongRecOn generalizing listing w with
  | ind left ih =>
    induction hbuffer : listing.buffer generalizing listing with
    | cons item rest ihrest =>
      rcases ihrest { listing with buffer := rest } hleft rfl
        with ⟨items, last, final, w', hnexts, hcollect, hlast⟩
      refine ⟨item :: items, last, final, w', ?_, ?_, hlast⟩
      · rw [List.length_cons, Listing.nexts, next_of_buffer hbuffer]
        dsimp only
        rw [hnexts]
        rfl
      · have hcons := collectWithin_of_buffer hbuffer listing.pagesLeft w
        have hrest : collectWithin listing.pagesLeft { listing with buffer := rest } w = _ :=
          hcollect
        rw [hrest] at hcons
        cases last <;> exact hcons
    | nil =>
      cases hpage : listing.paginator.nextPage with
      | none =>
        refine ⟨[], .ok none, listing, w, ?_, ?_, by simp⟩
        · rw [Listing.nexts, next_of_ended hbuffer hpage]
          rfl
        · rw [collect_of_ended hpage, hbuffer]
          rfl
      | some page =>
        rcases hask : listing.ask page w with ⟨halt | response, w₁⟩
        · refine ⟨[], .error halt, listing, w₁, ?_, ?_, by simp⟩
          · rw [Listing.nexts, next_of_page hbuffer hpage, fetch_of_error hask]
            rfl
          · rw [collect_of_page hpage, fetch_of_error hask]
            rfl
        · have hfetch := fetch_of_ok hask
          have hless := pagesLeft_fetch hpage hfetch
          rcases ih _ (hleft ▸ hless) _ _ rfl with
            ⟨items, last, final, w', hnexts, hcollect, hlast⟩
          refine ⟨items, last, final, w', ?_, ?_, hlast⟩
          · rw [Listing.nexts, next_of_page hbuffer hpage, hfetch]
            exact hnexts
          · rw [collect_of_page hpage, hfetch]
            exact hcollect

/-!
## What a stream keeps to
-/

omit [Json.Decode α] in
theorem start_cases {client : Client} {request : Request} {options : ListOptions}
    (h : Listing.start client request options = .ok begun) :
    begun.buffer = [] ∧ exists size, begun.paginator = .start size options.maxResults := by
  rcases start_eq_ok_iff.mp h with ⟨applied, _, rfl⟩
  exact ⟨rfl, applied.2, rfl⟩

/-- Nothing is lost or repeated by a stream that has received these pages and given these results,
and nothing will be. -/
structure Lossless (σ : Type) [Transport σ] (most : Option Nat) (begun : Listing α)
    (received : List (UInt32 × Page α)) (results : List (Except Halt (Option α)))
    (listing : Listing α) : Prop where
  numbers : received.map (·.1.toNat) = List.range' 1 received.length
  items : handedOut results ++ listing.buffer = upTo most (received.flatMap (·.2.data))
  position : listing.paginator = (begun.paginator.acceptAll received).2
  goesOn : forall w : World σ, exists more, begun.Session σ (received ++ more)
    (results ++ [(listing.next w).1]) (listing.next w).2.1
  /-- A failed step hands out nothing and stops at the page that the next step asks for first. -/
  failed : forall (w w' : World σ) (halt : Halt) (next : Listing α),
    listing.next w = (.error halt, next, w') -> next.buffer = [] ∧ exists more page w₁,
      begun.Session σ (received ++ more) (results ++ [.error halt]) next ∧
      next.paginator = (begun.paginator.acceptAll (received ++ more)).2 ∧
      next.paginator.nextPage = some page ∧ page.toNat = (received ++ more).length + 1 ∧
      next.ask page w₁ = (.error halt, w') ∧
      forall w₂ : World σ, next.next w₂ = next.nextAfter (next.fetch page w₂)
  ended : .ok none ∈ results -> forall w : World σ, listing.next w = (.ok none, listing, w)
  /-- Collecting goes on with single steps until one of them gives no item. -/
  collected : forall w : World σ, exists items last final w' more,
    listing.nexts (items.length + 1) w =
        (items.map (fun item => .ok (some item)) ++ [last], final, w') ∧
      listing.collect w = (last.map fun _ => items, w') ∧ (forall item, last ≠ .ok (some item)) ∧
      begun.Session σ (received ++ more)
        (results ++ (items.map (fun item => .ok (some item)) ++ [last])) final ∧
      (last = .ok none ->
        handedOut results ++ items = upTo most ((received ++ more).flatMap (·.2.data)))

omit [Json.Decode α] in
theorem handedOut_append (results more : List (Except Halt (Option α))) :
    handedOut (results ++ more) = handedOut results ++ handedOut more :=
  List.filterMap_append

omit [Json.Decode α] in
theorem handedOut_items (items : List α) :
    handedOut (items.map fun item => .ok (some item)) = items := by
  induction items with
  | nil => rfl
  | cons item rest ih => exact congrArg (item :: ·) ih

theorem Session.items_eq {client : Client} {request : Request} {options : ListOptions}
    (hbegun : Listing.start client request options = .ok begun)
    {received : List (UInt32 × Page α)} {results : List (Except Halt (Option α))}
    (h : begun.Session σ received results listing) :
    handedOut results ++ listing.buffer =
      upTo options.maxResults (received.flatMap (·.2.data)) := by
  rcases start_cases hbegun with ⟨hbuffer, size, hpaginator⟩
  rw [h.standing.items, hbuffer, hpaginator, Paginator.items_acceptAll, Paginator.admitted_start]
  rfl

/-- Whatever fails between its steps, a stream hands out the items of its pages in their order, up
to the most that were asked for. -/
theorem stream_is_lossless {client : Client} {request : Request} {options : ListOptions}
    (hbegun : Listing.start client request options = .ok begun)
    {received : List (UInt32 × Page α)} {results : List (Except Halt (Option α))}
    (h : begun.Session σ received results listing) :
    Lossless σ options.maxResults begun received results listing := by
  rcases start_cases hbegun with ⟨_, size, hpaginator⟩
  have hfollows := h.standing.follows
  rw [hpaginator] at hfollows
  constructor
  · exact Paginator.numbers_of_follows_start hfollows
  · exact h.items_eq hbegun
  · exact h.standing.paginator
  · intro w
    rcases exists_seeks listing w with ⟨more, hseeks⟩
    exact ⟨more, .step h w hseeks⟩
  · intro w w' halt next hnext
    rcases exists_seeks listing w with ⟨more, hseeks⟩
    have hsession := h.step w hseeks
    rw [hnext] at hsession hseeks
    rcases hseeks.failed_page with ⟨hbuffer, page, w₁, hpage, hask⟩
    have hposition := hsession.standing.paginator
    refine ⟨hbuffer, more, page, w₁, hsession, hposition, hpage, ?_, hask, ?_⟩
    · have hall := hsession.standing.follows
      rw [hpaginator] at hall hposition
      rw [hposition] at hpage
      exact Paginator.nextNumber_of_follows_start hall hpage
    · exact next_of_page hbuffer hpage
  · intro hended w
    rcases h.ended hended with ⟨hbuffer, hpage⟩
    exact next_of_ended hbuffer hpage w
  · intro w
    rcases exists_nexts_collect listing w with
      ⟨items, last, final, w', hnexts, hcollect, hlast⟩
    rcases h.nexts (items.length + 1) w with ⟨more, hsession⟩
    rw [hnexts] at hsession
    refine ⟨items, last, final, w', more, hnexts, hcollect, hlast, hsession, ?_⟩
    rintro rfl
    rcases hsession.ended (by simp) with ⟨hbuffer, _⟩
    have hitems := hsession.items_eq hbegun
    rw [hbuffer, List.append_nil, handedOut_append, handedOut_append, handedOut_items] at hitems
    have hnone : handedOut [.ok none] = ([] : List α) := rfl
    rw [hnone, List.append_nil] at hitems
    exact hitems

end Listing

namespace Sample

def begun : Listing UInt64 :=
  { client := { client with strategy := .never }, request, paginator := .start 25 (some 3)
    buffer := [] }

def pageReplies : List Reply :=
  [reply 3 (some (.ok (listed [7, 8] 1 3))), reply 3 (some (.ok unavailable)),
    reply 3 (some (.ok (listed [9, 10] 2 3)))]

def stepResults : List (Except Halt (Option UInt64)) :=
  [.ok (some 7), .ok (some 8),
    .error (.failed (.api ⟨unavailable.status, [⟨none, "Service Unavailable"⟩], "", .empty, none⟩)),
    .ok (some 9), .ok none]

theorem stream_goes_on_after_failure :
    exists received listing, begun.Session Script received stepResults listing ∧
      Listing.Lossless Script (some 3) begun received stepResults listing := by
  have hbegun : Listing.start { client with strategy := .never } request
      ⟨some 25, some 3, none⟩ = .ok begun := rfl
  have hresults : (begun.nexts 5 (world pageReplies)).1 = stepResults := by decide +kernel
  have hnone : begun.Session Script [] [] begun := .begun
  rcases hnone.nexts 5 (world pageReplies) with ⟨received, hsession⟩
  rw [hresults] at hsession
  exact ⟨received, _, hsession, Listing.stream_is_lossless hbegun hsession⟩

end Sample
end RestClient
