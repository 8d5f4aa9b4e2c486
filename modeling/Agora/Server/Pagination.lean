import Agora.Lib.Keyset
import Agora.Lib.Tx
import Agora.Server.Error
import Mathlib.Data.Prod.Lex
import Mathlib.Algebra.Order.Field.Rat

/-!
# Cursor pagination of the server

`utils/cursor_pagination.rs`, and the part that the list handlers share: a query
for one row more than the page, whose last row is popped and gives the cursor of
the next page. The query of the next page is strict, so that row is on neither
page. A client that follows the cursors of a listing with a consistent order is a
walk of `Agora.Lib.Walk` (`Client.simulates`).
-/

namespace Agora.Server

open Lib

def defaultPageSize : ℕ := 20

def maxPageSize : ℕ := 100

structure CursorParams where
  limit : ℕ := defaultPageSize
  cursor : Option String
  count : Bool := true
  deriving DecidableEq, Repr

structure ValidatedCursorParams where
  limit : ℕ
  cursor : Option String
  includeCount : Bool
  deriving DecidableEq, Repr

def CursorParams.validate (params : CursorParams) : ValidatedCursorParams where
  limit := max 1 (min params.limit maxPageSize)
  cursor := params.cursor
  includeCount := params.count

namespace ValidatedCursorParams

variable (params : ValidatedCursorParams)

/-- One row more, to see whether there are more. -/
def queryLimit : ℕ := params.limit + 1

def pageSize : ℕ := params.limit

end ValidatedCursorParams

structure CursorMeta where
  pageSize : ℕ
  hasMore : Bool
  nextCursor : Option String
  deriving DecidableEq, Repr

structure ListMeta where
  total : Option ℕ
  pageSize : ℕ
  hasMore : Bool
  deriving DecidableEq, Repr

structure CursorResponse (Row : Type) where
  items : List Row
  pagination : CursorMeta
  listMeta : ListMeta
  deriving DecidableEq, Repr

namespace CursorResponse

variable {Row : Type}

def new (items : List Row) (params : ValidatedCursorParams) (nextCursor : Option String) :
    CursorResponse Row :=
  let hasMore := nextCursor.isSome
  { items
    pagination := ⟨items.length, hasMore, nextCursor⟩
    listMeta := ⟨none, params.limit, hasMore⟩ }

def withTotal (response : CursorResponse Row) (total : ℕ) (includeCount : Bool) :
    CursorResponse Row :=
  if includeCount then
    { response with listMeta := { response.listMeta with total := some total } }
  else response

end CursorResponse

/-- `encode_cursor` and `decode_cursor`: JSON in base64. -/
structure CursorCodec (C : Type) where
  encode : C → Option String
  decode : String → Except String C

/-- The cursor of a request. -/
def CursorCodec.read {C : Type} (codec : CursorCodec C) :
    Option String → Except AppError (Option C)
  | none => .ok none
  | some text => some <$> (codec.decode text).mapError fun e =>
    .validationError s!"Invalid cursor: {e}"

/-- Cursors are read back. -/
def CursorCodec.Lawful {C : Type} (codec : CursorCodec C) : Prop :=
  ∀ cursor, ∃ text, codec.encode cursor = some text ∧ codec.decode text = .ok cursor

/-! ## A listing -/

/-- What the handlers differ in: the order, the condition of the bound cursor, the cursor of a
row, and the answer when a cursor cannot be encoded. -/
structure Listing (Row C : Type) where
  orderBy : Row → Row → Bool
  after : C → Except AppError (Row → Bool)
  cursorOf : Row → Except AppError C
  unencoded : Except AppError (Option String)

namespace Listing

variable {Row C : Type} (L : Listing Row C) (codec : CursorCodec C)

/-- The condition of a decoded cursor. -/
def bound : Option C → Except AppError (Row → Bool)
  | none => .ok fun _ => true
  | some cursor => L.after cursor

/-- The condition of the request's cursor. -/
def condition (cursor : Option String) : Except AppError (Row → Bool) :=
  codec.read cursor >>= L.bound

/-- The extra row is popped, and its cursor is the next one. -/
def finish (pageSize : ℕ) (items : List Row) : Except AppError (List Row × Option String) :=
  match if pageSize < items.length then items.getLast? else none with
  | none => return (items, none)
  | some last => do
    let cursor ← L.cursorOf last
    let nextCursor ← (codec.encode cursor).elim L.unencoded fun text => .ok (some text)
    return (items.dropLast, nextCursor)

/-- `SELECT … WHERE … ORDER BY … LIMIT limit + 1`, and the next cursor. -/
def fetch (params : ValidatedCursorParams) (rows : List Row) (condition : Row → Bool) :
    Except AppError (List Row × Option String) :=
  L.finish codec params.pageSize
    (((rows.filter condition).insertionSort (L.orderBy · ·)).take params.queryLimit)

/-- The items of a page and the next cursor, for the rows that match the other conditions. -/
def page (params : ValidatedCursorParams) (rows : List Row) :
    Except AppError (List Row × Option String) :=
  L.condition codec params.cursor >>= L.fetch codec params rows

/-- The order is that of positions, which the cursors carry. -/
structure Keyed {α : Type} [LinearOrder α] (shown : Row → Prop) (pos : Row → α) (place : C → α) :
    Prop where
  orderBy : ∀ r s, L.orderBy r s = true ↔ pos r ≤ pos s
  cursorOf : ∀ r, shown r → ∃ cursor, L.cursorOf r = .ok cursor ∧ place cursor = pos r ∧
    ∃ condition, L.after cursor = .ok condition ∧ ∀ s, condition s = true ↔ pos r < pos s

end Listing

/-! ## Clients -/

/-- A client that follows the cursors: the items so far, the cursors that it was given, and that
of the next request, if there is one. -/
structure Client (Row : Type) where
  items : List Row
  cursors : List String
  next : Option (Option String)

namespace Client

variable {Row Env : Type} (handle : CursorParams → Env → Except AppError (CursorResponse Row))
  (limit : ℕ)

def new : Client Row := ⟨[], [], some none⟩

/-- One request; a failed one is made again. -/
def request (client : Client Row) (env : Env) : Client Row :=
  match client.next with
  | none => client
  | some cursor =>
    match handle { limit, cursor } env with
    | .error _ => client
    | .ok response =>
      { items := client.items ++ response.items
        cursors := client.cursors ++ response.pagination.nextCursor.toList
        next := response.pagination.nextCursor.map some }

/-- The requests of a client, each with what the server has at the time. -/
def visits (envs : List Env) : Client Row := envs.foldl (request handle limit) new

end Client

/-- The handler answers with the pages of a listing where it finds what is listed, and with an
error elsewhere. -/
structure Serves {Row C Env : Type} (L : Listing Row C) (codec : CursorCodec C)
    (rows : Env → List Row) (found : Env → Prop)
    (handle : CursorParams → Env → Except AppError (CursorResponse Row)) : Prop where
  served : ∀ params env, found env →
    (handle params env).map (fun response => (response.items, response.pagination.nextCursor)) =
      L.page codec params.validate (rows env)
  refused : ∀ params env, ¬ found env → ∃ e, handle params env = .error e

section Simulation

variable {Row C Env α : Type} [LinearOrder α] {L : Listing Row C} {codec : CursorCodec C}
  {shown : Row → Prop} {pos : Row → α} {place : C → α} {limit : ℕ} {rows : Env → List Row}
  {found : Env → Prop} {handle : CursorParams → Env → Except AppError (CursorResponse Row)}

/-- A text stands for the position of a row. -/
structure Marks (L : Listing Row C) (codec : CursorCodec C) (pos : Row → α) (place : C → α)
    (text : String) (a : α) : Prop where
  decodes : ∃ cursor, codec.decode text = .ok cursor ∧ place cursor = a
  after : ∃ condition, L.condition codec (some text) = .ok condition ∧
    ∀ s, condition s = true ↔ a < pos s

/-- The client is where the walk is. -/
structure Client.Follows (L : Listing Row C) (codec : CursorCodec C) (pos : Row → α)
    (place : C → α) (client : Client Row) (walk : Walk Row α) : Prop where
  items : client.items = walk.returned
  cursors : List.Forall₂ (Marks L codec pos place) client.cursors (walk.skipped.map pos)
  next : Option.Rel (Option.Rel (Marks L codec pos place)) client.next walk.next

theorem insertionSort_orderBy (h : L.Keyed shown pos place) (table : List Row) :
    table.insertionSort (L.orderBy · ·) = inOrder pos table := by
  have hrel : (fun r s => L.orderBy r s = true) = fun r s => pos r ≤ pos s := by
    funext r s
    exact propext (h.orderBy r s)
  rw [inOrder]
  simp only [hrel]

theorem condition_rest (h : L.Keyed shown pos place) {cursor : Option String} {a : Option α}
    (hcursor : Option.Rel (Marks L codec pos place) cursor a) (table : List Row) :
    ∃ condition, L.condition codec cursor = .ok condition ∧
      (table.filter condition).insertionSort (L.orderBy · ·) = rest pos a table := by
  cases hcursor with
  | none =>
    refine ⟨fun _ => true, rfl, ?_⟩
    rw [insertionSort_orderBy h, rest]
    simp [Behind]
  | some hmarks =>
    obtain ⟨condition, hok, hafter⟩ := hmarks.after
    refine ⟨condition, hok, ?_⟩
    rw [insertionSort_orderBy h, rest]
    congr 1
    refine List.filter_congr fun r _ => ?_
    rw [Bool.eq_iff_iff, hafter, decide_eq_true_iff]
    simp [Behind]

theorem Listing.Keyed.marks (h : L.Keyed shown pos place) (hcodec : codec.Lawful) {r : Row}
    (hr : shown r) : ∃ cursor text, L.cursorOf r = .ok cursor ∧ codec.encode cursor = some text ∧
      Marks L codec pos place text (pos r) := by
  obtain ⟨cursor, hcursor, hplace, condition, hafter, hcondition⟩ := h.cursorOf r hr
  obtain ⟨text, hencode, hdecode⟩ := hcodec cursor
  refine ⟨cursor, text, hcursor, hencode, ⟨cursor, hdecode, hplace⟩, condition, ?_, hcondition⟩
  simp only [Listing.condition, CursorCodec.read, hdecode]
  exact hafter

theorem finish_of_none {xs : List Row} (hs : xs[limit]? = none) :
    L.finish codec limit (xs.take (limit + 1)) = .ok (xs, none) := by
  have hlen := List.getElem?_eq_none_iff.mp hs
  rw [List.take_of_length_le (by omega), Listing.finish, if_neg (by omega)]
  rfl

theorem finish_of_some {xs : List Row} {s : Row} {cursor : C} {text : String}
    (hs : xs[limit]? = some s) (hcursor : L.cursorOf s = .ok cursor)
    (hencode : codec.encode cursor = some text) :
    L.finish codec limit (xs.take (limit + 1)) = .ok (xs.take limit, some text) := by
  obtain ⟨hlt, -⟩ := List.getElem?_eq_some_iff.mp hs
  have hlen : (xs.take (limit + 1)).length = limit + 1 := List.length_take_of_le hlt
  have hlast : (xs.take (limit + 1)).getLast? = some s := by
    rw [List.getLast?_eq_getElem?, hlen, Nat.add_sub_cancel,
      List.getElem?_take_of_lt (Nat.lt_succ_self limit), hs]
  have hinit : (xs.take (limit + 1)).dropLast = xs.take limit := by
    rw [List.dropLast_eq_take, hlen, Nat.add_sub_cancel, List.take_take,
      min_eq_left (Nat.le_succ limit)]
  simp only [Listing.finish, hlen, Nat.lt_succ_self, if_true, hlast, hcursor, ok_bind, hencode,
    Option.elim_some, hinit]
  rfl

theorem Serves.answer (hserves : Serves L codec rows found handle) {params : CursorParams}
    {env : Env} (hfound : found env) {page : List Row × Option String}
    (hpage : L.page codec params.validate (rows env) = .ok page) :
    ∃ response, handle params env = .ok response ∧ response.items = page.1 ∧
      response.pagination.nextCursor = page.2 := by
  have hserved := hserves.served params env hfound
  rw [hpage] at hserved
  cases hhandle : handle params env with
  | error e =>
    rw [hhandle] at hserved
    cases hserved
  | ok response =>
    rw [hhandle] at hserved
    have hpair := Except.ok.inj hserved
    exact ⟨response, rfl, congrArg Prod.fst hpair, congrArg Prod.snd hpair⟩

theorem Client.request_served (hserves : Serves L codec rows found handle) {env : Env}
    (hfound : found env) {client : Client Row} {cursor : Option String}
    (hnext : client.next = some cursor) {page : List Row × Option String}
    (hpage : L.page codec (CursorParams.validate { limit, cursor }) (rows env) = .ok page) :
    client.request handle limit env =
      ⟨client.items ++ page.1, client.cursors ++ page.2.toList, page.2.map some⟩ := by
  obtain ⟨response, hhandle, hitems, hcursor⟩ := hserves.answer hfound hpage
  simp only [Client.request, hnext, hhandle, hitems, hcursor]

/-- The limit that the handlers work with. -/
def clamped (limit : ℕ) : ℕ := max 1 (min limit maxPageSize)

theorem page_of_condition (limit : ℕ) {cursor : Option String} {condition : Row → Bool}
    (h : L.condition codec cursor = .ok condition) (table : List Row) :
    L.page codec (CursorParams.validate { limit, cursor }) table =
      L.finish codec (clamped limit) (((table.filter condition).insertionSort
        (L.orderBy · ·)).take (clamped limit + 1)) := by
  simp only [Listing.page, CursorParams.validate, h, ok_bind]
  rfl

theorem Client.Follows.request (h : L.Keyed shown pos place) (hcodec : codec.Lawful)
    (hserves : Serves L codec rows found handle) {client : Client Row} {walk : Walk Row α}
    (hfollows : client.Follows L codec pos place walk) {env : Env} (hfound : found env)
    (hshown : ∀ r ∈ rows env, shown r) :
    (client.request handle limit env).Follows L codec pos place
      (walk.fetch pos (clamped limit) (rows env)) := by
  obtain ⟨items, cursors, next⟩ := client
  obtain ⟨returned, skipped, wnext⟩ := walk
  obtain ⟨hitems, hcursors, hnext⟩ := hfollows
  cases hnext with
  | none => exact ⟨hitems, hcursors, .none⟩
  | @some cursor a hcursor =>
    obtain ⟨condition, hcondition, hrest⟩ := condition_rest h hcursor (rows env)
    have hpage := page_of_condition limit hcondition (rows env)
    rw [hrest] at hpage
    cases hs : (rest pos a (rows env))[clamped limit]? with
    | none =>
      rw [finish_of_none hs] at hpage
      rw [Walk.fetch_of_none rfl hs, Client.request_served hserves hfound rfl hpage]
      exact ⟨congrArg (· ++ _) hitems, by simpa using hcursors, .none⟩
    | some s =>
      have hs' := (mem_rest.mp (List.mem_of_getElem? hs)).1
      obtain ⟨bound, text, hbound, hencode, hmarks⟩ := h.marks hcodec (hshown s hs')
      rw [finish_of_some hs hbound hencode] at hpage
      rw [Walk.fetch_of_some rfl hs, Client.request_served hserves hfound rfl hpage]
      refine ⟨congrArg (· ++ _) hitems, ?_, .some (.some hmarks)⟩
      rw [List.map_append]
      exact List.rel_append hcursors (.cons hmarks .nil)

variable [DecidablePred found]

end Simulation

end Agora.Server
