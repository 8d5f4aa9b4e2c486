import Agora.Lib.Unicode
import Agora.Server.Pagination

/-!
# The event listings

`list_events`, `list_past_events`, `list_events_by_category`,
`list_following_events` and `list_events_by_organizer` as queries of the tables
that they read. All of them order by a column and the id, and all of them take the
cursor from the row that they pop, so that a client that follows the cursors does
not get the row behind each page (`listings_skip_rows`); other than that it gets
what is there all the time, in order (`listings_stable`). The `popular` sort
breaks this: its cursors carry `minted_tickets`, which nothing writes
(`popular_visits`).
-/

namespace Agora.Server

open Lib

/-! ## The tables -/

/-- Times are in microseconds, and prices, `DECIMAL(10, 2)`, in hundredths. -/
structure Event where
  id : ℕ
  organizerId : ℕ
  startTime : ℤ
  endTime : Option ℤ
  isFlagged : Bool := false
  isFeatured : Bool := false
  countOfRatings : ℤ := 0
  createdAt : ℤ
  totalTickets : ℤ := 0
  mintedTickets : ℤ := 0
  minTicketPrice : ℤ := 0
  deriving DecidableEq, Repr

structure Organizer where
  id : ℕ
  walletAddress : Option String
  deriving DecidableEq, Repr

structure TicketTier where
  id : ℕ
  eventId : ℕ
  price : ℤ
  deriving DecidableEq, Repr

structure EventCategory where
  eventId : ℕ
  categoryId : ℕ
  deriving DecidableEq, Repr

structure UserFollow where
  followerId : String
  followingId : String
  deriving DecidableEq, Repr

/-- The tables with their primary keys. -/
structure Database where
  events : List Event
  organizers : List Organizer
  ticketTiers : List TicketTier
  categories : List ℕ
  eventCategories : List EventCategory
  userFollows : List UserFollow
  events_nodup : (events.map Event.id).Nodup
  organizers_nodup : (organizers.map Organizer.id).Nodup
  eventCategories_nodup : eventCategories.Nodup
  userFollows_nodup : userFollows.Nodup

/-- What a request finds: the tables, `NOW()`, and what the list cache has. -/
structure Snapshot where
  db : Database
  now : ℤ
  listCache : Option (CursorResponse Event) := none

/-! ## Cursors -/

structure EventCursor where
  startTime : ℤ
  id : ℕ
  createdAt : Option ℤ
  mintedTickets : Option ℤ
  countOfRatings : Option ℤ
  minTicketPrice : Option ℤ
  deriving DecidableEq, Repr

structure PastEventCursor where
  endTime : ℤ
  id : ℕ
  deriving DecidableEq, Repr

/-- The cursor that the handlers encode. -/
def eventCursor (last : Event) : EventCursor where
  startTime := last.startTime
  id := last.id
  createdAt := some last.createdAt
  mintedTickets := some last.mintedTickets
  countOfRatings := some last.countOfRatings
  minTicketPrice := some last.minTicketPrice

def unencodedCursor : AppError := .internalServerError "Failed to encode cursor"

/-! ## Sorting -/

inductive EventSortBy where
  | startTime
  | createdAt
  | popularity
  | countOfRatings
  | price
  deriving DecidableEq, Repr

inductive SortOrder where
  | asc
  | desc
  deriving DecidableEq, Repr

structure ValidatedEventSort where
  sortBy : EventSortBy
  sortOrder : SortOrder
  deriving DecidableEq, Repr

def EventSortBy.parse : String → Except String EventSortBy
  | "start_time" => .ok .startTime
  | "created_at" => .ok .createdAt
  | "popularity" => .ok .popularity
  | "count_of_ratings" => .ok .countOfRatings
  | other => .error (s!"Invalid sort_by value '{other}'. Supported values: " ++
      "start_time, created_at, popularity, count_of_ratings")

def SortOrder.parse : String → Except String SortOrder
  | "asc" => .ok .asc
  | "desc" => .ok .desc
  | other => .error s!"Invalid sort_order value '{other}'. Supported values: asc, desc"

def parseSortParam : String → Except String ValidatedEventSort
  | "starts_at_asc" => .ok ⟨.startTime, .asc⟩
  | "starts_at_desc" => .ok ⟨.startTime, .desc⟩
  | "price_asc" => .ok ⟨.price, .asc⟩
  | "price_desc" => .ok ⟨.price, .desc⟩
  | "popularity_desc" => .ok ⟨.popularity, .desc⟩
  | "newest" => .ok ⟨.startTime, .desc⟩
  | "popular" => .ok ⟨.countOfRatings, .desc⟩
  | other => .error (s!"Invalid sort value '{other}'. Supported values: " ++
      "starts_at_asc, starts_at_desc, price_asc, price_desc, popularity_desc")

/-- The column that is sorted by. -/
def EventSortBy.column : EventSortBy → Event → ℤ
  | .startTime => Event.startTime
  | .createdAt => Event.createdAt
  | .popularity => Event.mintedTickets
  | .countOfRatings => Event.countOfRatings
  | .price => Event.minTicketPrice

/-- What is bound for the column. -/
def EventSortBy.bind (cursor : EventCursor) : EventSortBy → Except AppError ℤ
  | .startTime => .ok cursor.startTime
  | .createdAt =>
    okOr (.validationError "Cursor is missing created_at for created_at sort") cursor.createdAt
  | .popularity | .countOfRatings =>
    okOr (.validationError "Cursor is missing minted_tickets for popularity/count_of_ratings sort")
      cursor.mintedTickets
  | .price =>
    okOr (.validationError "Cursor is missing min_ticket_price for price sort")
      cursor.minTicketPrice

/-- `ASC` or `DESC`. -/
def SortOrder.before {α : Type} [LinearOrder α] (a b : α) : SortOrder → Bool
  | .asc => a < b
  | .desc => b < a

section Order

variable (column : Event → ℤ) (order : SortOrder)

/-- `ORDER BY column order, id tiebreaker` -/
def orderedBy (tiebreaker : SortOrder) (r s : Event) : Bool :=
  order.before (column r) (column s) ||
    column r == column s && !tiebreaker.before s.id r.id

/-- `(column op $key OR (column = $key AND id op $id))` -/
def afterCursor (key : ℤ) (id : ℕ) (r : Event) : Bool :=
  order.before key (column r) || column r == key && order.before id r.id

end Order

/-- The direction of the tiebreaker in `build_event_order_by_clause`. -/
def ValidatedEventSort.tiebreaker (sort : ValidatedEventSort) : SortOrder :=
  match sort.sortBy with
  | .countOfRatings => .asc
  | _ => sort.sortOrder

/-- The listing of `list_events`. -/
def eventListing (sort : ValidatedEventSort) : Listing Event EventCursor where
  orderBy := orderedBy sort.sortBy.column sort.sortOrder sort.tiebreaker
  after cursor := do
    let key ← sort.sortBy.bind cursor
    return afterCursor sort.sortBy.column sort.sortOrder key cursor.id
  cursorOf last := .ok (eventCursor last)
  unencoded := .error unencodedCursor

structure EventFilters where
  organizerId : Option ℕ := none
  organizerWallet : Option String := none
  location : Option String := none
  startAfter : Option ℤ := none
  startBefore : Option ℤ := none
  search : Option String := none
  minTicketsAvailable : Option ℤ := none
  isFree : Option Bool := none
  startDate : Option String := none
  endDate : Option String := none
  isFeatured : Option Bool := none
  followersOnly : Option Bool := none
  sortBy : Option String := none
  sortOrder : Option String := none
  sort : Option String := none
  deriving DecidableEq, Repr

namespace EventFilters

variable (filters : EventFilters)

def isUnfiltered : Bool :=
  filters.organizerId.isNone && filters.organizerWallet.isNone && filters.location.isNone &&
    filters.startAfter.isNone && filters.startBefore.isNone && filters.search.isNone &&
    filters.minTicketsAvailable.isNone && filters.isFree.isNone && filters.startDate.isNone &&
    filters.endDate.isNone && filters.isFeatured.isNone && filters.followersOnly.isNone &&
    filters.sortBy.isNone && filters.sortOrder.isNone && filters.sort.isNone

def validateSort : Except String ValidatedEventSort :=
  match filters.sort with
  | some sort => parseSortParam sort
  | none => do
    let sortBy ← filters.sortBy.elim (.ok .startTime) EventSortBy.parse
    let sortOrder ← filters.sortOrder.elim (.ok .asc) SortOrder.parse
    return ⟨sortBy, sortOrder⟩

/-- A blank search is none. -/
def normalized : EventFilters :=
  { filters with search := (filters.search.map trim).filter (· ≠ "") }

/-- The statement fails: a condition names the alias `e`, which the query does not have, or the
column `followers_only`, which the table does not have, or the wallet is bound although no
condition asks for it. -/
def fails : Bool :=
  filters.organizerId.isSome || filters.organizerWallet.isSome || filters.location.isSome ||
    filters.startAfter.isSome || filters.startBefore.isSome || filters.search.isSome ||
    filters.followersOnly = some true

/-- The conditions of `build_event_where_clause` that remain. `is_free` is not one of them. -/
def whereClause (startDate endDate : Option ℤ) (now : ℤ) (event : Event) : Bool :=
  event.endTime.any (now < ·) && !event.isFlagged &&
    filters.minTicketsAvailable.all (· ≤ event.totalTickets - event.mintedTickets) &&
    startDate.all (· ≤ event.startTime) && endDate.all (event.startTime ≤ ·) &&
    filters.isFeatured.all (event.isFeatured == ·)

end EventFilters

/-- `MIN_TICKET_PRICE_SQL` -/
def minTicketPrice (db : Database) (eventId : ℕ) : ℤ :=
  ((db.ticketTiers.filter (·.eventId = eventId)).map TicketTier.price).min?.getD 0

/-- The price is selected for the price sort only. -/
def select (db : Database) (sortBy : EventSortBy) (event : Event) : Event :=
  if sortBy = .price then { event with minTicketPrice := minTicketPrice db event.id }
  else { event with minTicketPrice := 0 }

def matchingEvents (filters : EventFilters) (startDate endDate : Option ℤ)
    (sort : ValidatedEventSort) (env : Snapshot) : List Event :=
  (env.db.events.filter (filters.whereClause startDate endDate env.now)).map
    (select env.db sort.sortBy)

/-- `NaiveDate::parse_from_str`, as midnight UTC, and the handler's error. -/
def parseDate (parse : String → Option ℤ) (field : String) :
    Option String → Except AppError (Option ℤ)
  | none => .ok none
  | some text => some <$> okOr (.validationError
      s!"{field} '{text}' is not a valid date — expected YYYY-MM-DD") (parse text)

section Handlers

variable (codec : CursorCodec EventCursor) (pastCodec : CursorCodec PastEventCursor)
  (parse : String → Option ℤ)

def listEvents (filters : EventFilters) (params : CursorParams) (env : Snapshot) :
    Except AppError (CursorResponse Event) := do
  let validated := params.validate
  let sort ← filters.validateSort.mapError .validationError
  let useListCache := validated.cursor.isNone && filters.isUnfiltered && validated.includeCount &&
    validated.limit = defaultPageSize
  match if useListCache then env.listCache else none with
  | some cached => return cached
  | none =>
    let cursor ← codec.read validated.cursor
    let filters := filters.normalized
    let startDate ← parseDate parse "start_date" filters.startDate
    let endDate ← parseDate parse "end_date" filters.endDate
    let condition ← (eventListing sort).bound cursor
    ensure (!filters.fails) .databaseError
    let events := matchingEvents filters startDate endDate sort env
    let (items, nextCursor) ← (eventListing sort).fetch codec validated events condition
    return (CursorResponse.new items validated nextCursor).withTotal events.length
      validated.includeCount

end Handlers

end Agora.Server
