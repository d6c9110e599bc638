import Autobackup.Foundation.Machine
import Autobackup.Foundation.PagedMap
import Mathlib.Algebra.Group.Nat.Defs
import Mathlib.Logic.Function.Basic

/-!
# View queries

The backend shows the users of a view page by page.  A page that was queried stays in a cache for
five minutes, whoever asks for a page that is being queried waits for the response, and a query
starts from the last key of a cached page before the one that is wanted, if there is such a page.

A view is the list of its rows, which are sorted by their keys.  `step` is what the event loop does
on a request, on a response and on a timeout of the cache; `none` is undefined behaviour or an
exception that nobody catches.
-/

namespace Autobackup.CouchbaseBackend

/-- `AnonymousBitcoinComputingCouchbaseDB_VIEWS_AKA_MAPS__ITEMS_PER_PAGE` -/
def itemsPerPage : ℕ := 10

/-- The page of a request, which is an `int`. -/
structure PageNum where
  value : ℕ
  pos : 1 ≤ value
  lt : value < 2 ^ 31

section

variable {κ δ : Type} [LinearOrder κ]

/-- The parameters of a query.  The limit always is the page size. -/
structure ViewQuery (κ δ : Type) where
  /-- `startkey_docid` is misspelt, and couchbase does not know the parameter. -/
  starkeyDocid : Option δ
  startkey : Option κ
  skip : ℕ

/-- The rows that couchbase sends. -/
def ViewQuery.rows (q : ViewQuery κ δ) (view : SortedMap κ δ) : List (κ × δ) :=
  ((q.startkey.elim view.entries view.atOrAfter).drop q.skip).take itemsPerPage

/-- `ViewQueryCouchbaseDocumentByKeyRequest::respond` -/
structure PageAnswer (κ : Type) where
  request : ℕ
  usernames : List κ
  totalPages : ℕ

/-- The members that have to do with view queries. -/
structure ViewQueries (κ δ : Type) where
  /-- The last doc id and all keys of a page. -/
  cachedPages : SortedMap ℕ (δ × List κ)
  totalPageCount : ℕ
  /-- `PagesCurrentlyBeingRequested`, with the requests that want the page. -/
  requested : ℕ → Option (List ℕ)
  /-- When the cached pages expire. -/
  timeouts : List (ℤ × ℕ)
  /-- The queries that couchbase has not answered yet. -/
  inFlight : List (ℕ × ViewQuery κ δ)
  /-- The pages that were requested so far; a request is known by its place. -/
  requests : List PageNum
  answers : List (PageAnswer κ)

namespace ViewQueries

def initial : ViewQueries κ δ where
  cachedPages := SortedMap.empty
  totalPageCount := 1
  requested _ := none
  timeouts := []
  inFlight := []
  requests := []
  answers := []

def respond (s : ViewQueries κ δ) (request : ℕ) (usernames : List κ) : ViewQueries κ δ :=
  { s with answers := s.answers ++ [⟨request, usernames, s.totalPageCount⟩] }

/-- The query is sent, and the request waits for its response. -/
def query (s : ViewQueries κ δ) (pageNum : ℕ) (request : ℕ) (q : ViewQuery κ δ) :
    ViewQueries κ δ :=
  { s with
    requested := Function.update s.requested pageNum (some [request])
    inFlight := s.inFlight ++ [(pageNum, q)] }

/-- An `int` that may overflow. -/
def checkedInt (n : ℕ) : Option ℕ := if n < 2 ^ 31 then some n else none

/-- `ABC_VIEW_QUERY_APPEND_INEFFICIENT_SKIP_TO_VIEW_PATH_PLX_MACRO` -/
def inefficientSkip (pageNum : ℕ) : Option (ViewQuery κ δ) :=
  (checkedInt ((pageNum - 1) * itemsPerPage)).map fun skip => ⟨none, none, skip⟩

/-- The query from a cached page that is before the one that is wanted. -/
def queryFromCachedPage (pageNum : ℕ) (cached : ℕ × δ × List κ) : Option (ViewQuery κ δ) :=
  if 1 < pageNum then
    match cached.2.2.getLast? with
    | some lastKey =>
        -- one more than whole pages, since the query begins with the last key of the cached page
        (checkedInt (1 + (pageNum - cached.1 - 1) * itemsPerPage)).map fun skip =>
          ⟨some cached.2.1, some lastKey, skip⟩
    | none => none
  else some ⟨none, none, 0⟩

/-- The cache is not empty, and the page may be in it. -/
def lookInCache (s : ViewQueries κ δ) (pageNum : ℕ) (request : ℕ) : Option (ViewQueries κ δ) :=
  -- there is no such page, so far as is known from the last query
  if s.totalPageCount < pageNum then some (s.respond request [])
  else
    match s.cachedPages.atOrAfter pageNum with
    | [] => none -- the end iterator is dereferenced
    | cached :: _ =>
        if cached.1 = pageNum then some (s.respond request cached.2.2)
        else
          match (s.cachedPages.before pageNum).getLast? with
          | none => (inefficientSkip pageNum).map (s.query pageNum request)
          | some previous =>
              (queryFromCachedPage pageNum previous).map (s.query pageNum request)

/-- `eventSlotForWtViewQuery` -/
def eventSlotForWtViewQuery (s : ViewQueries κ δ) (pageNum : PageNum) :
    Option (ViewQueries κ δ) :=
  let request := s.requests.length
  let s := { s with requests := s.requests ++ [pageNum] }
  match s.requested pageNum.value with
  | some waiting =>
      some
        { s with
          requested := Function.update s.requested pageNum.value (some (waiting ++ [request])) }
  | none =>
      -- asked for the first time, or expired since
      if s.cachedPages.entries ≠ [] then s.lookInCache pageNum.value request
      else (inefficientSkip pageNum.value).map (s.query pageNum.value request)

/-- A timeout comes behind those that are not later. -/
def insertTimeout (timeout : ℤ × ℕ) : List (ℤ × ℕ) → List (ℤ × ℕ)
  | [] => [timeout]
  | t :: rest => if timeout.1 < t.1 then timeout :: t :: rest else t :: insertTimeout timeout rest

/-- Cached pages expire after five minutes. -/
def cacheTheLastUsernamesDocIdAndAllUsernamesOnThatPage (s : ViewQueries κ δ) (pageNumJustGot : ℕ)
    (lastDocIdOnPage : δ) (usernames : List κ) (now : ℤ) : ViewQueries κ δ :=
  { s with
    cachedPages := s.cachedPages.insertNew pageNumJustGot (lastDocIdOnPage, usernames)
    timeouts := insertTimeout (now + 5 * 60 * 1000, pageNumJustGot) s.timeouts }

/-- `viewQueryCompleteCallback`, where the view has answered. -/
def viewQueryCompleteCallback (s : ViewQueries κ δ) (pageNumJustGot : ℕ) (rows : List (κ × δ))
    (totalRows : ℕ) (now : ℤ) : Option (ViewQueries κ δ) :=
  -- `lexical_cast<int>` throws
  if 2 ^ 31 ≤ totalRows then none
  else
    let totalPageCount :=
      totalRows / itemsPerPage + if totalRows % itemsPerPage ≠ 0 then 1 else 0
    match s.requested pageNumJustGot with
    | none => none
    | some waiting =>
        let s :=
          { s with
            totalPageCount := totalPageCount
            answers := s.answers ++ waiting.map fun request =>
              ⟨request, rows.map Prod.fst, totalPageCount⟩
            requested := Function.update s.requested pageNumJustGot none }
        match rows.getLast? with
        | none => some s
        | some last =>
            some (s.cacheTheLastUsernamesDocIdAndAllUsernamesOnThatPage pageNumJustGot last.2
              (rows.map Prod.fst) now)

/-- `viewPageCacheTimeoutEventSlot`: what has expired is removed. -/
def removeExpired (now : ℤ) :
    List (ℤ × ℕ) → SortedMap ℕ (δ × List κ) → List (ℤ × ℕ) × SortedMap ℕ (δ × List κ)
  | [], cachedPages => ([], cachedPages)
  | t :: rest, cachedPages =>
      if t.1 ≤ now then removeExpired now rest (cachedPages.erase t.2)
      else (t :: rest, cachedPages)

def viewPageCacheTimeoutEventSlot (s : ViewQueries κ δ) (now : ℤ) : ViewQueries κ δ :=
  { s with
    timeouts := (removeExpired now s.timeouts s.cachedPages).1
    cachedPages := (removeExpired now s.timeouts s.cachedPages).2 }

end ViewQueries

inductive ViewEvent
  | request (pageNum : PageNum)
  /-- The query for the page is answered. -/
  | response (pageNum : ℕ) (now : ℤ)
  | timeout (now : ℤ)

namespace ViewQueries

/-- One event; there are responses only to queries that were sent. -/
def handle (view : SortedMap κ δ) (s : ViewQueries κ δ) : ViewEvent → Option (ViewQueries κ δ)
  | .request pageNum => s.eventSlotForWtViewQuery pageNum
  | .response pageNum now =>
      match s.inFlight.lookup pageNum with
      | none => some s
      | some q =>
          { s with inFlight := s.inFlight.filter (·.1 ≠ pageNum) }.viewQueryCompleteCallback
            pageNum (q.rows view) view.entries.length now
  | .timeout now => some (s.viewPageCacheTimeoutEventSlot now)

def step (view : SortedMap κ δ) (s : Option (ViewQueries κ δ)) (event : ViewEvent) :
    Option (ViewQueries κ δ) :=
  s.bind fun s => s.handle view event

end ViewQueries

end

end Autobackup.CouchbaseBackend
