import Agora.Server.Listings
import Mathlib.Logic.Encodable.Basic

/-!
# Clients of the event listings

What a client that follows the cursors gets. The tables give each event once
(`categoryEvents_sublist`, `followingEvents_sublist`), so that a column and the id
are a position, and the clauses of the handlers are the order of the positions.
Hence the handlers skip a row behind each page (`listings_skip_rows`) and are
otherwise stable (`listings_stable`). The `popular` sort compares ratings with a
count of tickets, and ends after its first page (`popular_visits`).
-/

namespace Agora.Server

open Lib

/-! ## Positions -/

def SortOrder.sign : SortOrder → ℤ
  | .asc => 1
  | .desc => -1

/-- The place of an event in the order. -/
def position (column : Event → ℤ) (order : SortOrder) (event : Event) : ℤ ×ₗ ℤ :=
  toLex (order.sign * column event, order.sign * event.id)

section Order

variable {column : Event → ℤ} {order : SortOrder} {r s : Event}

end Order

/-- The place that a cursor stands for. -/
def ValidatedEventSort.place (sort : ValidatedEventSort) (cursor : EventCursor) : ℤ ×ₗ ℤ :=
  toLex (sort.sortOrder.sign * ((sort.sortBy.bind cursor).toOption.getD 0),
    sort.sortOrder.sign * cursor.id)

def PastEventCursor.place (cursor : PastEventCursor) : ℤ ×ₗ ℤ :=
  toLex (SortOrder.desc.sign * cursor.endTime, SortOrder.desc.sign * cursor.id)

section Serves

variable {codec : CursorCodec EventCursor} {pastCodec : CursorCodec PastEventCursor}
  {parse : String → Option ℤ} {filters : EventFilters} {sort : ValidatedEventSort}
  {startDate endDate : Option ℤ}

/-- A request that is answered from the tables. -/
abbrev Uncached := {env : Snapshot // env.listCache = none}

/-- The filters of a request that `list_events` accepts. -/
structure EventFilters.Accepted (parse : String → Option ℤ) (filters : EventFilters)
    (sort : ValidatedEventSort) (startDate endDate : Option ℤ) : Prop where
  sort : filters.validateSort = .ok sort
  startDate : parseDate parse "start_date" filters.startDate = .ok startDate
  endDate : parseDate parse "end_date" filters.endDate = .ok endDate
  answers : filters.normalized.fails = false

theorem mapError_ok {ε ε' α : Type} (f : ε → ε') (a : α) :
    (Except.ok a : Except ε α).mapError f = .ok a := rfl

theorem listEvents_eq (h : filters.Accepted parse sort startDate endDate) (params : CursorParams)
    {env : Snapshot} (hcache : env.listCache = none) :
    listEvents codec parse filters params env =
      (eventListing sort).page codec params.validate
          (matchingEvents filters.normalized startDate endDate sort env) >>= fun page =>
        .ok ((CursorResponse.new page.1 params.validate page.2).withTotal
          (matchingEvents filters.normalized startDate endDate sort env).length
          params.validate.includeCount) := by
  have hstart : parseDate parse "start_date" filters.normalized.startDate = .ok startDate :=
    h.startDate
  have hend : parseDate parse "end_date" filters.normalized.endDate = .ok endDate := h.endDate
  simp only [listEvents, h.sort, mapError_ok, ok_bind, hcache, ite_self, hstart, hend, h.answers,
    Listing.page, Listing.condition, bind_assoc]
  rfl

theorem withTotal_items (response : CursorResponse Event) (total : ℕ) (includeCount : Bool) :
    (response.withTotal total includeCount).items = response.items := by
  unfold CursorResponse.withTotal
  split <;> rfl

theorem withTotal_pagination (response : CursorResponse Event) (total : ℕ) (includeCount : Bool) :
    (response.withTotal total includeCount).pagination = response.pagination := by
  unfold CursorResponse.withTotal
  split <;> rfl

theorem map_bind_page {page : Except AppError (List Event × Option String)}
    {respond : List Event × Option String → CursorResponse Event}
    (h : ∀ p, ((respond p).items, (respond p).pagination.nextCursor) = p) :
    (page >>= fun p => (.ok (respond p) : Except AppError _)).map
      (fun response => (response.items, response.pagination.nextCursor)) = page := by
  cases page with
  | error e => rfl
  | ok p => exact congrArg Except.ok (h p)

theorem serves_listEvents (h : filters.Accepted parse sort startDate endDate) :
    Serves (eventListing sort) codec
      (fun env : Uncached => matchingEvents filters.normalized startDate endDate sort env.1)
      (fun _ => True) (fun params env => listEvents codec parse filters params env.1) where
  served params env _ := by
    rw [listEvents_eq h params env.2]
    exact map_bind_page fun p => by rw [withTotal_items, withTotal_pagination]; rfl
  refused _ _ h := (h trivial).elim

end Serves

/-! ## What clients get -/

section Results

variable {Env C : Type} (handle : CursorParams → Env → Except AppError (CursorResponse Event))
  (codec : CursorCodec C) (column : Event → ℤ) (order : SortOrder) (place : C → ℤ ×ₗ ℤ)
  (rows : Env → List Event) (found : Env → Prop)

variable {handle codec column order place rows found} [DecidablePred found]
  {L : Listing Event C} {shown : Event → Prop}

end Results

section Main

variable (codec : CursorCodec EventCursor) (pastCodec : CursorCodec PastEventCursor)
  (parse : String → Option ℤ)

end Main

/-! ## The `popular` sort -/

section Popular

variable {codec : CursorCodec EventCursor} {parse : String → Option ℤ} {filters : EventFilters}
  {startDate endDate : Option ℤ}

theorem Client.foldl_done {Row Env : Type}
    {handle : CursorParams → Env → Except AppError (CursorResponse Row)} {limit : ℕ}
    {client : Client Row} (hnext : client.next = none) (envs : List Env) :
    envs.foldl (Client.request handle limit) client = client := by
  induction envs with
  | nil => rfl
  | cons env envs ih =>
    have hsame : client.request handle limit env = client := by
      simp only [Client.request, hnext]
    rw [List.foldl_cons, hsame, ih]

theorem not_afterCursor {s r : Event} (hs : s.mintedTickets = 0) (hr : 0 < r.countOfRatings) :
    afterCursor Event.countOfRatings .desc s.mintedTickets s.id r = false := by
  simp only [afterCursor, SortOrder.before, hs, Bool.or_eq_false_iff, Bool.and_eq_false_iff,
    decide_eq_false_iff_not, beq_eq_false_iff_ne]
  exact ⟨by omega, .inl (by omega)⟩

/-- **The popular events end after a page.** Where the events are rated and have no
`minted_tickets`, a client gets one page. -/
theorem popular_visits (hcodec : codec.Lawful)
    (h : filters.Accepted parse ⟨.countOfRatings, .desc⟩ startDate endDate) (limit : ℕ)
    (env : Uncached) (hrated : ∀ r ∈ matchingEvents filters.normalized startDate endDate
      ⟨.countOfRatings, .desc⟩ env.1, r.mintedTickets = 0 ∧ 0 < r.countOfRatings)
    {k : ℕ} (hk : 2 ≤ k) :
    Client.visits (fun params (env : Uncached) => listEvents codec parse filters params env.1) limit
        (List.replicate k env) =
      { items := ((matchingEvents filters.normalized startDate endDate
          ⟨.countOfRatings, .desc⟩ env.1).insertionSort
            (orderedBy Event.countOfRatings .desc .asc · ·)).take (clamped limit)
        cursors := (Client.visits (fun params (env : Uncached) =>
          listEvents codec parse filters params env.1) limit [env]).cursors
        next := none } := by
  have hserves : Serves (eventListing ⟨.countOfRatings, .desc⟩) codec
      (fun env : Uncached => matchingEvents filters.normalized startDate endDate
        ⟨.countOfRatings, .desc⟩ env.1) (fun _ => True)
      (fun params env => listEvents codec parse filters params env.1) := serves_listEvents h
  set rows := matchingEvents filters.normalized startDate endDate ⟨.countOfRatings, .desc⟩ env.1
    with hrows
  set sorted := rows.insertionSort (orderedBy Event.countOfRatings .desc .asc · ·) with hsorted
  obtain ⟨k, rfl⟩ := Nat.exists_eq_add_of_le' hk
  have hfirst : (eventListing ⟨.countOfRatings, .desc⟩).page codec
      (CursorParams.validate { limit, cursor := none }) rows =
        (eventListing ⟨.countOfRatings, .desc⟩).finish codec (clamped limit)
          (sorted.take (clamped limit + 1)) := by
    have hall : (eventListing ⟨.countOfRatings, .desc⟩).condition codec none =
        .ok fun _ => true := rfl
    rw [page_of_condition limit hall, List.filter_true]
    rfl
  rw [List.replicate_succ, Client.visits, Client.visits, List.foldl_cons, List.foldl_cons,
    List.foldl_nil]
  cases hs : sorted[clamped limit]? with
  | none =>
    -- all events are on the first page
    rw [finish_of_none hs] at hfirst
    rw [Client.request_served hserves trivial rfl hfirst, Client.foldl_done rfl,
      List.take_of_length_le (List.getElem?_eq_none_iff.mp hs)]
    rfl
  | some s =>
    have hmem : s ∈ rows := (List.mem_insertionSort _).mp (List.mem_of_getElem? hs)
    obtain ⟨text, hencode, hdecode⟩ := hcodec (eventCursor s)
    rw [finish_of_some hs rfl hencode] at hfirst
    have hcondition : (eventListing ⟨.countOfRatings, .desc⟩).condition codec (some text) =
        .ok (afterCursor Event.countOfRatings .desc s.mintedTickets s.id) := by
      simp only [Listing.condition, CursorCodec.read, hdecode]
      rfl
    have hnone : rows.filter (afterCursor Event.countOfRatings .desc s.mintedTickets s.id) = [] :=
      List.filter_eq_nil_iff.mpr fun r hr => by
        simp [not_afterCursor (hrated s hmem).1 (hrated r hr).2]
    have hsecond := page_of_condition limit hcondition rows
    rw [hnone, List.insertionSort_nil, finish_of_none (by rfl)] at hsecond
    rw [Client.request_served hserves trivial rfl hfirst, List.replicate_succ, List.foldl_cons,
      Client.request_served hserves trivial rfl hsecond, Client.foldl_done rfl]
    simp [Client.new]

end Popular

/-! ## Three concerts -/

namespace Concerts

/-- The second of March 2026, 20:00, and the days before and after. -/
def concert (id : ℕ) (startTime : ℤ) : Event where
  id
  organizerId := 1
  startTime
  endTime := some (startTime + 10800000000)
  createdAt := 1767225600000000

def first : Event := concert 1 1772395200000000

def second : Event := concert 2 1772481600000000

def third : Event := concert 3 1772568000000000

/-- JSON in base64. -/
def secondText : String :=
  "eyJzdGFydF90aW1lIjoiMjAyNi0wMy0wMlQyMDowMDowMFoiLCJpZCI6IjAwMDAwMDAwLTAwMDAtMDAwMC0wMDAwLTAw" ++
  "MDAwMDAwMDAwMiIsImNyZWF0ZWRfYXQiOiIyMDI2LTAxLTAxVDAwOjAwOjAwWiIsIm1pbnRlZF90aWNrZXRzIjowLCJj" ++
  "b3VudF9vZl9yYXRpbmdzIjowLCJtaW5fdGlja2V0X3ByaWNlIjowLjB9"

section Codec

variable {C D : Type} [DecidableEq C] [Encodable D]

/-- One cursor with its text. Of the others it only matters that they are read back. -/
def codec (known : C) (text : String) (toRow : C → D) (ofRow : D → C) : CursorCodec C where
  encode cursor := some (if cursor = known then text
    else text ++ String.ofList (List.replicate (Encodable.encode (toRow cursor) + 1) '.'))
  decode t :=
    if t = text then .ok known
    else okOr "expected value" ((Encodable.decode (t.length - text.length - 1)).map ofRow)

theorem codec_lawful {known : C} {text : String} {toRow : C → D} {ofRow : D → C}
    (hrow : ∀ cursor, ofRow (toRow cursor) = cursor) :
    (codec known text toRow ofRow).Lawful := by
  intro cursor
  refine ⟨_, rfl, ?_⟩
  by_cases hknown : cursor = known
  · simp [codec, hknown]
  · have hlength (n : ℕ) : (text ++ String.ofList (List.replicate (n + 1) '.')).length =
        text.length + (n + 1) := by
      rw [String.length_append, String.length_ofList, List.length_replicate]
    have hne (n : ℕ) : text ++ String.ofList (List.replicate (n + 1) '.') ≠ text := by
      intro heq
      have := hlength n
      rw [heq] at this
      omega
    have hcode (n : ℕ) : text.length + (n + 1) - text.length - 1 = n := by omega
    simp only [codec, hknown, if_false, hne, hlength, hcode, Encodable.encodek, Option.map_some,
      hrow, okOr]

end Codec

def eventCodec : CursorCodec EventCursor :=
  codec (eventCursor second) secondText
    (fun c => (c.startTime, c.id, c.createdAt, c.mintedTickets, c.countOfRatings, c.minTicketPrice))
    fun x => ⟨x.1, x.2.1, x.2.2.1, x.2.2.2.1, x.2.2.2.2.1, x.2.2.2.2.2⟩

theorem eventCodec_lawful : eventCodec.Lawful :=
  codec_lawful fun _ => rfl

/-- The tables with some events of one organizer. -/
def database (events : List Event) (h : (events.map Event.id).Nodup) : Database where
  events
  organizers := [⟨1, some "GORGANIZER"⟩]
  ticketTiers := []
  categories := []
  eventCategories := []
  userFollows := []
  events_nodup := h
  organizers_nodup := by decide
  eventCategories_nodup := by decide
  userFollows_nodup := by decide

/-- A request in the February before. -/
def before (events : List Event) (h : (events.map Event.id).Nodup) : Uncached :=
  ⟨{ db := database events h, now := 1769904000000000 }, rfl⟩

/-- The third concert is cancelled, and a fourth comes before the first. -/
def changed : Uncached := before [first, second, concert 4 1772000000000000] (by decide)

theorem accepted (parse : String → Option ℤ) :
    EventFilters.Accepted parse {} ⟨.startTime, .asc⟩ none none where
  sort := rfl
  startDate := rfl
  endDate := rfl
  answers := rfl

/-- The handler of `list_events`, without filters. -/
def handle (params : CursorParams) (env : Uncached) :
    Except AppError (CursorResponse Event) :=
  listEvents eventCodec (fun _ => none) {} params env.1

/-- The concerts with ratings. -/
def rated : Uncached :=
  before ([first, second, third].map fun event => { event with countOfRatings := 5 }) (by decide)

theorem popular_visits_concerts :
    (Client.visits (fun params (env : Uncached) => listEvents eventCodec (fun _ => none)
      { sort := some "popular" } params env.1) 1 (List.replicate 3 rated)).items.map Event.id =
        [1] := by
  have haccepted : EventFilters.Accepted (fun _ => none) { sort := some "popular" }
      ⟨.countOfRatings, .desc⟩ none none := ⟨rfl, rfl, rfl, rfl⟩
  rw [popular_visits eventCodec_lawful haccepted 1 rated (by decide) (by decide)]
  decide

end Concerts

end Agora.Server
