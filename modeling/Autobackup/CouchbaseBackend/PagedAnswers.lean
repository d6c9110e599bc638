import Autobackup.CouchbaseBackend.ViewQueries
import Autobackup.Foundation.Waiters

/-!
# What the view queries answer

Every request for a page waits for a query of it or was answered once, with the rows that skipping
finds and with the number of pages (`AnswersCorrectly`).  The cache, the waiting requests and the
queries that start from a cached page all keep that.

One search goes wrong.  The cached pages are searched for the first one from the wanted page on, and
what was found is looked at without asking whether there is one: where the wanted page exists and
all cached pages are before it, that is the end iterator.  `answersCorrectly_iff` has the exact
condition.

The view does not change during a run: what a cached page says about the rows behind it stays true,
and what is left to prove is that the search uses it right.  Pages are numbered as in the source,
and a number is checked against what an `int` can hold, as `skip` is one.
-/

namespace Autobackup.CouchbaseBackend.ViewQueries

open Waiters

variable {κ δ : Type} [LinearOrder κ] {view : SortedMap κ δ} {s s' : ViewQueries κ δ}

/-- The keys of a page of the view. -/
def keysOn (view : SortedMap κ δ) (pageNum : ℕ) : List κ :=
  (view.page itemsPerPage pageNum).map Prod.fst

/-- The answer has what plain skipping finds. -/
def IsRight (view : SortedMap κ δ) (requests : List PageNum) (answer : PageAnswer κ) : Prop :=
  ∃ pageNum, requests[answer.request]? = some pageNum ∧
    answer.usernames = keysOn view pageNum.value ∧
    answer.totalPages = view.pageCount itemsPerPage

/-- Answers are right, and each request was answered once or its page is being queried.  Right is
what skipping over the rows would find, with the number of pages that there are. -/
structure AnswersCorrectly (view : SortedMap κ δ) (s : ViewQueries κ δ) : Prop where
  right : ∀ answer ∈ s.answers, IsRight view s.requests answer
  once : ∀ i pageNum, s.requests[i]? = some pageNum →
    (s.answers.map PageAnswer.request).count i = 1 ∨
      (s.answers.map PageAnswer.request).count i = 0 ∧
        pageNum.value ∈ s.inFlight.map Prod.fst

/-- The condition on an event under which the code is defined.  It names each way in which a request
is handled without the end of the cache being looked at. -/
def IsServed (view : SortedMap κ δ) (s : ViewQueries κ δ) : ViewEvent → Prop
  | .request pageNum =>
      s.requested pageNum.value ≠ none ∨
        if s.cachedPages.entries = [] then (pageNum.value - 1) * itemsPerPage < 2 ^ 31
        else view.pageCount itemsPerPage < pageNum.value ∨
          ∃ cached ∈ s.cachedPages.entries, pageNum.value ≤ cached.1
  | .response pageNum _ =>
      pageNum ∈ s.inFlight.map Prod.fst → view.entries.length < 2 ^ 31
  | .timeout _ => True

/-- What the cache says is right. -/
structure CachesPages (view : SortedMap κ δ) (s : ViewQueries κ δ) : Prop where
  keys : ∀ cached ∈ s.cachedPages.entries, cached.2.2 = keysOn view cached.1
  nonempty : ∀ cached ∈ s.cachedPages.entries, cached.2.2 ≠ []
  pos : ∀ cached ∈ s.cachedPages.entries, 1 ≤ cached.1
  totalPages : s.cachedPages.entries ≠ [] →
    s.totalPageCount = view.pageCount itemsPerPage ∧ view.entries.length < 2 ^ 31

/-- What holds between the events of a run. -/
structure Consistent (view : SortedMap κ δ) (s : ViewQueries κ δ) : Prop where
  cache : CachesPages view s
  nodup : (s.inFlight.map Prod.fst).Nodup
  queries : ∀ q ∈ s.inFlight, 1 ≤ q.1 ∧ q.2.rows view = view.page itemsPerPage q.1
  asked : ∀ p, s.requested p ≠ none ↔ p ∈ s.inFlight.map Prod.fst
  accounted : Accounted PageNum.value s.requests s.requested (s.answers.map PageAnswer.request)
  right : ∀ answer ∈ s.answers, IsRight view s.requests answer

lemma Consistent.answersCorrectly (h : Consistent view s) : AnswersCorrectly view s where
  right := h.right
  once i pageNum hi := by
    rw [h.accounted.once i pageNum hi]
    split_ifs with hwaits
    · refine .inr ⟨rfl, (h.asked pageNum.value).1 fun hnone => ?_⟩
      rw [waitingFor_of_eq_none hnone] at hwaits
      exact absurd hwaits List.not_mem_nil
    · exact .inl rfl

lemma consistent_initial (view : SortedMap κ δ) :
    Consistent view (initial : ViewQueries κ δ) where
  cache :=
    { keys := fun _ h => absurd h List.not_mem_nil
      nonempty := fun _ h => absurd h List.not_mem_nil
      pos := fun _ h => absurd h List.not_mem_nil
      totalPages := fun h => absurd rfl h }
  nodup := List.nodup_nil
  queries _ h := absurd h List.not_mem_nil
  asked p := by simp [initial]
  accounted := Accounted.nil fun _ => rfl
  right _ h := absurd h List.not_mem_nil

/-! ## Queries -/

lemma itemsPerPage_pos : 0 < itemsPerPage := Nat.succ_pos 9

lemma checkedInt_of_lt {n : ℕ} (h : n < 2 ^ 31) : checkedInt n = some n := if_pos h

lemma checkedInt_of_not_lt {n : ℕ} (h : ¬n < 2 ^ 31) : checkedInt n = none := if_neg h

omit [LinearOrder κ] in
lemma inefficientSkip_of_lt {p : ℕ} (h : (p - 1) * itemsPerPage < 2 ^ 31) :
    (inefficientSkip p : Option (ViewQuery κ δ)) =
      some ⟨none, none, (p - 1) * itemsPerPage⟩ := by
  rw [inefficientSkip, checkedInt_of_lt h, Option.map_some]

/-- Skipping from the start of the view finds the page. -/
lemma rows_skip (view : SortedMap κ δ) (p : ℕ) :
    (⟨none, none, (p - 1) * itemsPerPage⟩ : ViewQuery κ δ).rows view =
      view.page itemsPerPage p := rfl

/-- A page that exists starts at a row whose number is an `int`. -/
lemma skip_lt {p : ℕ} (hp : 1 ≤ p) (hle : p ≤ view.pageCount itemsPerPage)
    (hlength : view.entries.length < 2 ^ 31) : (p - 1) * itemsPerPage < 2 ^ 31 :=
  ((SortedMap.le_pageCount_iff itemsPerPage_pos hp).1 hle).trans hlength

/-- **A query from a cached page finds the page that is wanted.** -/
lemma exists_queryFromCachedPage {cached : ℕ × δ × List κ} {p : ℕ}
    (hkeys : cached.2.2 = keysOn view cached.1) (hne : cached.2.2 ≠ []) (hpos : 1 ≤ cached.1)
    (hlt : cached.1 < p) (hle : p ≤ view.pageCount itemsPerPage)
    (hlength : view.entries.length < 2 ^ 31) :
    ∃ q, queryFromCachedPage p cached = some q ∧ q.rows view = view.page itemsPerPage p := by
  have hp : 1 < p := lt_of_le_of_lt hpos hlt
  obtain ⟨last, hlast⟩ : ∃ last, (view.page itemsPerPage cached.1).getLast? = some last := by
    refine Option.ne_none_iff_exists'.1 fun hnone => hne ?_
    rw [hkeys, keysOn, List.getLast?_eq_none_iff.1 hnone, List.map_nil]
  have hlastKey : cached.2.2.getLast? = some last.1 := by
    rw [hkeys, keysOn, List.getLast?_map, hlast, Option.map_some]
  have hskip : 1 + (p - cached.1 - 1) * itemsPerPage < 2 ^ 31 := by
    have hstart := skip_lt hp.le hle hlength
    have hitems : itemsPerPage = 10 := rfl
    rw [hitems] at hstart ⊢
    omega
  refine ⟨⟨some cached.2.1, some last.1, 1 + (p - cached.1 - 1) * itemsPerPage⟩, ?_, ?_⟩
  · simp only [queryFromCachedPage, if_pos hp, hlastKey, checkedInt_of_lt hskip, Option.map_some]
  · exact SortedMap.drop_atOrAfter hpos hlt hle itemsPerPage_pos hlast

/-! ## Looking in the cache -/

section

variable {p request : ℕ}

/-- Before the end iterator, the answer is known or the page is queried. -/
lemma lookInCache_of_found (h : CachesPages view s) (hne : s.cachedPages.entries ≠ [])
    (hp : 1 ≤ p)
    (hfound : view.pageCount itemsPerPage < p ∨ ∃ cached ∈ s.cachedPages.entries, p ≤ cached.1) :
    s.lookInCache p request = some (s.respond request (keysOn view p)) ∨
      ∃ q : ViewQuery κ δ, q.rows view = view.page itemsPerPage p ∧
        s.lookInCache p request = some (s.query p request q) := by
  obtain ⟨htotal, hlength⟩ := h.totalPages hne
  unfold lookInCache
  by_cases hmissing : s.totalPageCount < p
  · -- a page that does not exist has no rows
    left
    have hnil : keysOn view p = [] := by
      rw [keysOn, (SortedMap.page_eq_nil_iff itemsPerPage_pos hp).2 (htotal ▸ hmissing),
        List.map_nil]
    rw [if_pos hmissing, hnil]
  · have hle : p ≤ view.pageCount itemsPerPage := htotal ▸ not_lt.1 hmissing
    rw [if_neg hmissing]
    cases hsearch : s.cachedPages.atOrAfter p with
    | nil =>
        obtain ⟨cached, hmem, hge⟩ := hfound.resolve_left (not_lt.2 hle)
        have hsmaller := SortedMap.atOrAfter_eq_nil_iff.1 hsearch cached hmem
        exact absurd hsmaller (not_lt.2 hge)
    | cons cached rest =>
        have hcached : cached ∈ s.cachedPages.entries := by
          rw [← SortedMap.before_append_atOrAfter s.cachedPages p, hsearch]
          exact List.mem_append_right _ List.mem_cons_self
        by_cases hhit : cached.1 = p
        · left
          show (if cached.1 = p then _ else _) = _
          rw [if_pos hhit, h.keys cached hcached, hhit]
        · right
          show ∃ q, _ ∧ (if cached.1 = p then _ else _) = _
          rw [if_neg hhit]
          cases hbefore : (s.cachedPages.before p).getLast? with
          | none =>
              refine ⟨⟨none, none, (p - 1) * itemsPerPage⟩, rows_skip view p, ?_⟩
              rw [inefficientSkip_of_lt (skip_lt hp hle hlength), Option.map_some]
          | some previous =>
              have hprevious : previous ∈ s.cachedPages.before p :=
                List.mem_of_getLast? hbefore
              have hmem : previous ∈ s.cachedPages.entries := by
                rw [← SortedMap.before_append_atOrAfter s.cachedPages p]
                exact List.mem_append_left _ hprevious
              obtain ⟨q, hq, hrows⟩ := exists_queryFromCachedPage (h.keys previous hmem)
                (h.nonempty previous hmem) (h.pos previous hmem)
                (SortedMap.lt_of_mem_before hprevious) hle hlength
              refine ⟨q, hrows, ?_⟩
              show (queryFromCachedPage p previous).map (s.query p request) = _
              rw [hq, Option.map_some]

/-- Otherwise the end iterator is dereferenced. -/
lemma lookInCache_of_not_found (h : CachesPages view s) (hne : s.cachedPages.entries ≠ [])
    (hfound : ¬(view.pageCount itemsPerPage < p ∨
      ∃ cached ∈ s.cachedPages.entries, p ≤ cached.1)) : s.lookInCache p request = none := by
  obtain ⟨hle, hbefore⟩ := not_or.1 hfound
  have hsearch : s.cachedPages.atOrAfter p = [] :=
    SortedMap.atOrAfter_eq_nil_iff.2 fun cached hmem =>
      not_le.1 fun hge => hbefore ⟨cached, hmem, hge⟩
  unfold lookInCache
  rw [if_neg ((h.totalPages hne).1 ▸ hle), hsearch]

end

/-! ## Requests -/

section

variable {pageNum : PageNum}

lemma IsRight.append {requests : List PageNum} {answer : PageAnswer κ}
    (h : IsRight view requests answer) : IsRight view (requests ++ [pageNum]) answer := by
  obtain ⟨asked, hasked, hright⟩ := h
  have hlt := (List.getElem?_eq_some_iff.1 hasked).1
  exact ⟨asked, List.getElem?_append_left hlt ▸ hasked, hright⟩

/-- The request is noted. -/
def noted (s : ViewQueries κ δ) (pageNum : PageNum) : ViewQueries κ δ :=
  { s with requests := s.requests ++ [pageNum] }

lemma CachesPages.noted (h : CachesPages view s) : CachesPages view (s.noted pageNum) :=
  ⟨h.keys, h.nonempty, h.pos, h.totalPages⟩

/-- **What a request does** in the states of a run. -/
lemma request_cases (pageNum : PageNum) (h : Consistent view s) :
    s.eventSlotForWtViewQuery pageNum = none ∧ ¬IsServed view s (.request pageNum) ∨
      IsServed view s (.request pageNum) ∧
        ((∃ waiting, s.requested pageNum.value = some waiting ∧
            s.eventSlotForWtViewQuery pageNum =
              some { s.noted pageNum with
                requested := Function.update s.requested pageNum.value
                  (some (waiting ++ [s.requests.length])) }) ∨
          s.requested pageNum.value = none ∧
            (s.cachedPages.entries ≠ [] ∧ s.eventSlotForWtViewQuery pageNum =
                some ((s.noted pageNum).respond s.requests.length (keysOn view pageNum.value)) ∨
              ∃ q : ViewQuery κ δ, q.rows view = view.page itemsPerPage pageNum.value ∧
                s.eventSlotForWtViewQuery pageNum =
                  some ((s.noted pageNum).query pageNum.value s.requests.length q))) := by
  cases hrequested : s.requested pageNum.value with
  | some waiting =>
      refine .inr ⟨.inl (hrequested ▸ Option.some_ne_none waiting), .inl ⟨waiting, rfl, ?_⟩⟩
      simp only [eventSlotForWtViewQuery, hrequested, ViewQueries.noted]
  | none =>
      by_cases hempty : s.cachedPages.entries = []
      · have hrun : s.eventSlotForWtViewQuery pageNum =
            (inefficientSkip pageNum.value).map
              ((s.noted pageNum).query pageNum.value s.requests.length) := by
          simp only [eventSlotForWtViewQuery, hrequested, hempty, ne_eq, not_true_eq_false,
            if_false, ViewQueries.noted]
        rw [hrun]
        simp only [IsServed, hrequested, if_pos hempty]
        by_cases hlt : (pageNum.value - 1) * itemsPerPage < 2 ^ 31
        · refine .inr ⟨.inr hlt, .inr ⟨trivial, .inr ⟨_, rows_skip view _, ?_⟩⟩⟩
          rw [inefficientSkip_of_lt hlt, Option.map_some]
        · refine .inl ⟨?_, fun hserved => hlt (hserved.resolve_left (not_not.2 rfl))⟩
          rw [inefficientSkip, checkedInt_of_not_lt hlt, Option.map_none, Option.map_none]
      · have hrun : s.eventSlotForWtViewQuery pageNum =
            (s.noted pageNum).lookInCache pageNum.value s.requests.length := by
          simp only [eventSlotForWtViewQuery, hrequested, hempty, ne_eq, not_false_eq_true,
            if_true, ViewQueries.noted]
        rw [hrun]
        simp only [IsServed, hrequested, if_neg hempty]
        by_cases hfound : view.pageCount itemsPerPage < pageNum.value ∨
            ∃ cached ∈ s.cachedPages.entries, pageNum.value ≤ cached.1
        · refine .inr ⟨.inr hfound, .inr ⟨trivial, ?_⟩⟩
          exact (lookInCache_of_found h.cache.noted hempty pageNum.pos hfound).imp_left
            fun hanswer => ⟨hempty, hanswer⟩
        · exact .inl ⟨lookInCache_of_not_found h.cache.noted hempty hfound,
            fun hserved => hfound (hserved.resolve_left (not_not.2 rfl))⟩

lemma consistent_wait {waiting : List ℕ} (h : Consistent view s)
    (hwaiting : s.requested pageNum.value = some waiting) :
    Consistent view
      { s.noted pageNum with
        requested := Function.update s.requested pageNum.value
          (some (waiting ++ [s.requests.length])) } where
  cache := ⟨h.cache.keys, h.cache.nonempty, h.cache.pos, h.cache.totalPages⟩
  nodup := h.nodup
  queries := h.queries
  asked p := by
    by_cases hp : p = pageNum.value
    · subst hp
      show Function.update s.requested pageNum.value _ pageNum.value ≠ none ↔ _
      rw [Function.update_self]
      have hasked := (h.asked pageNum.value).1 (hwaiting ▸ Option.some_ne_none waiting)
      exact iff_of_true (Option.some_ne_none _) hasked
    · show Function.update s.requested pageNum.value _ p ≠ none ↔ _
      rw [Function.update_of_ne hp]
      exact h.asked p
  accounted := by
    have hwait := h.accounted.wait (r := pageNum)
    rw [waitingFor_of_eq_some hwaiting] at hwait
    exact hwait
  right answer hanswer := (h.right answer hanswer).append

lemma consistent_respond (h : Consistent view s) (hne : s.cachedPages.entries ≠ []) :
    Consistent view
      ((s.noted pageNum).respond s.requests.length (keysOn view pageNum.value)) where
  cache := ⟨h.cache.keys, h.cache.nonempty, h.cache.pos, h.cache.totalPages⟩
  nodup := h.nodup
  queries := h.queries
  asked := h.asked
  accounted := by
    have hanswered := h.accounted.answerNow (r := pageNum)
    unfold respond noted
    rw [List.map_append]
    exact hanswered
  right answer hanswer := by
    rcases List.mem_append.1 hanswer with hanswer | hanswer
    · exact (h.right answer hanswer).append
    · rw [List.mem_singleton.1 hanswer]
      exact ⟨pageNum, List.getElem?_concat_length, rfl, (h.cache.totalPages hne).1⟩

lemma consistent_query {q : ViewQuery κ δ} (h : Consistent view s)
    (hnone : s.requested pageNum.value = none)
    (hq : q.rows view = view.page itemsPerPage pageNum.value) :
    Consistent view ((s.noted pageNum).query pageNum.value s.requests.length q) where
  cache := ⟨h.cache.keys, h.cache.nonempty, h.cache.pos, h.cache.totalPages⟩
  nodup := by
    have hnew : pageNum.value ∉ s.inFlight.map Prod.fst :=
      fun hmem => (h.asked pageNum.value).2 hmem hnone
    unfold query noted
    rw [List.map_append, List.map_singleton]
    exact List.Nodup.append h.nodup (List.nodup_singleton _) (List.disjoint_singleton.2 hnew)
  queries sent hsent := by
    rcases List.mem_append.1 hsent with hsent | hsent
    · exact h.queries sent hsent
    · rw [List.mem_singleton.1 hsent]
      exact ⟨pageNum.pos, hq⟩
  asked p := by
    unfold query noted
    rw [List.map_append, List.map_singleton, List.mem_append, List.mem_singleton]
    by_cases hp : p = pageNum.value
    · subst hp
      show Function.update s.requested pageNum.value _ pageNum.value ≠ none ↔ _
      rw [Function.update_self]
      exact iff_of_true (Option.some_ne_none _) (.inr rfl)
    · show Function.update s.requested pageNum.value _ p ≠ none ↔ _
      rw [Function.update_of_ne hp, h.asked p]
      exact (or_iff_left hp).symm
  accounted := by
    have hwait := h.accounted.wait (r := pageNum)
    rw [waitingFor_of_eq_none hnone, List.nil_append] at hwait
    exact hwait
  right answer hanswer := (h.right answer hanswer).append

end

/-! ## Responses -/

omit [LinearOrder κ] in
lemma lookup_eq_none_iff {pageNum : ℕ} :
    s.inFlight.lookup pageNum = none ↔ pageNum ∉ s.inFlight.map Prod.fst := by
  rw [List.lookup_eq_none_iff, List.mem_map, not_exists]
  constructor
  · rintro h q ⟨hq, rfl⟩
    simpa using h q hq
  · intro h q hq
    simpa using fun heq => h q ⟨hq, heq.symm⟩

omit [LinearOrder κ] in
/-- The pages that are still being queried after a response. -/
lemma mem_filter_inFlight {pageNum p : ℕ} :
    p ∈ (s.inFlight.filter (·.1 ≠ pageNum)).map Prod.fst ↔
      p ≠ pageNum ∧ p ∈ s.inFlight.map Prod.fst := by
  simp only [List.mem_map, List.mem_filter, decide_eq_true_eq]
  constructor
  · rintro ⟨q, ⟨hq, hne⟩, rfl⟩
    exact ⟨hne, q, hq, rfl⟩
  · rintro ⟨hne, q, hq, rfl⟩
    exact ⟨q, ⟨hq, hne⟩, rfl⟩

/-- All that waited are answered, and the page is not queried any more. -/
def answeredAll (view : SortedMap κ δ) (s : ViewQueries κ δ) (pageNum : ℕ) : ViewQueries κ δ :=
  { s with
    inFlight := s.inFlight.filter (·.1 ≠ pageNum)
    totalPageCount := view.pageCount itemsPerPage
    answers := s.answers ++ (waitingFor s.requested pageNum).map fun request =>
      ⟨request, keysOn view pageNum, view.pageCount itemsPerPage⟩
    requested := Function.update s.requested pageNum none }

lemma consistent_answeredAll (pageNum : ℕ) (h : Consistent view s)
    (hlength : view.entries.length < 2 ^ 31) : Consistent view (s.answeredAll view pageNum) where
  cache := ⟨h.cache.keys, h.cache.nonempty, h.cache.pos, fun _ => ⟨rfl, hlength⟩⟩
  nodup := by
    have hsub : (s.inFlight.filter (·.1 ≠ pageNum)).Sublist s.inFlight := List.filter_sublist
    exact h.nodup.sublist (hsub.map Prod.fst)
  queries sent hsent := h.queries sent (List.mem_filter.1 hsent).1
  asked p := by
    show Function.update s.requested pageNum none p ≠ none ↔ _
    refine Iff.trans ?_ mem_filter_inFlight.symm
    by_cases hp : p = pageNum
    · subst hp
      rw [Function.update_self]
      exact iff_of_false (not_not.2 rfl) fun hboth => hboth.1 rfl
    · rw [Function.update_of_ne hp, h.asked p]
      exact (and_iff_right hp).symm
  accounted := by
    have hall := h.accounted.answerAll (c := pageNum)
    unfold answeredAll
    rw [List.map_append, List.map_map]
    simpa only [Function.comp_def, List.map_id'] using hall
  right answer hanswer := by
    rcases List.mem_append.1 hanswer with hanswer | hanswer
    · exact h.right answer hanswer
    · obtain ⟨i, hi, rfl⟩ := List.mem_map.1 hanswer
      obtain ⟨asked, hasked, rfl⟩ := h.accounted.wants pageNum i hi
      exact ⟨asked, hasked, rfl, rfl⟩

/-- A page that has rows goes into the cache. -/
lemma consistent_cache {pageNum : ℕ} {lastDocId : δ} {now : ℤ} (h : Consistent view s)
    (hpos : 1 ≤ pageNum) (hne : keysOn view pageNum ≠ [])
    (htotal : s.totalPageCount = view.pageCount itemsPerPage)
    (hlength : view.entries.length < 2 ^ 31) :
    Consistent view (s.cacheTheLastUsernamesDocIdAndAllUsernamesOnThatPage pageNum lastDocId
      (keysOn view pageNum) now) where
  cache :=
    { keys := by
        intro cached hcached
        rcases SortedMap.mem_of_mem_insertNew hcached with rfl | hold
        · rfl
        · exact h.cache.keys cached hold
      nonempty := by
        intro cached hcached
        rcases SortedMap.mem_of_mem_insertNew hcached with rfl | hold
        · exact hne
        · exact h.cache.nonempty cached hold
      pos := by
        intro cached hcached
        rcases SortedMap.mem_of_mem_insertNew hcached with rfl | hold
        · exact hpos
        · exact h.cache.pos cached hold
      totalPages := fun _ => ⟨htotal, hlength⟩ }
  nodup := h.nodup
  queries := h.queries
  asked := h.asked
  accounted := h.accounted
  right := h.right

/-- **What a response does** in the states of a run. -/
lemma response_cases (pageNum : ℕ) (now : ℤ) (h : Consistent view s) :
    (s.handle view (.response pageNum now) = none ∧ ¬IsServed view s (.response pageNum now)) ∨
      IsServed view s (.response pageNum now) ∧
        (s.handle view (.response pageNum now) = some s ∨
          ∃ q, (pageNum, q) ∈ s.inFlight ∧ view.entries.length < 2 ^ 31 ∧
            (s.handle view (.response pageNum now) = some (s.answeredAll view pageNum) ∨
              keysOn view pageNum ≠ [] ∧ ∃ lastDocId : δ,
                s.handle view (.response pageNum now) =
                  some ((s.answeredAll view
                    pageNum).cacheTheLastUsernamesDocIdAndAllUsernamesOnThatPage pageNum lastDocId
                      (keysOn view pageNum) now))) := by
  cases hlookup : s.inFlight.lookup pageNum with
  | none =>
      refine .inr ⟨fun hmem => absurd hmem (lookup_eq_none_iff.1 hlookup), .inl ?_⟩
      simp only [handle, hlookup]
  | some q =>
      have hsent : (pageNum, q) ∈ s.inFlight := by
        obtain ⟨before, after, hsplit, -⟩ := List.lookup_eq_some_iff.1 hlookup
        rw [hsplit]
        exact List.mem_append_right _ List.mem_cons_self
      have hpage : pageNum ∈ s.inFlight.map Prod.fst := List.mem_map_of_mem hsent
      obtain ⟨waiting, hwaiting⟩ : ∃ waiting, s.requested pageNum = some waiting :=
        Option.ne_none_iff_exists'.1 ((h.asked pageNum).2 hpage)
      have hrows : q.rows view = view.page itemsPerPage pageNum := (h.queries _ hsent).2
      by_cases hlength : view.entries.length < 2 ^ 31
      · refine .inr ⟨fun _ => hlength, .inr ⟨q, hsent, hlength, ?_⟩⟩
        have hwaits := waitingFor_of_eq_some hwaiting
        cases hlast : (view.page itemsPerPage pageNum).getLast? with
        | none =>
            left
            simp only [handle, hlookup, viewQueryCompleteCallback, if_neg (not_le.2 hlength),
              hwaiting, hrows, hlast, answeredAll, hwaits, keysOn]
            rfl
        | some last =>
            right
            refine ⟨fun hnil => ?_, last.2, ?_⟩
            · rw [List.map_eq_nil_iff.1 hnil] at hlast
              exact absurd hlast (by simp)
            · simp only [handle, hlookup, viewQueryCompleteCallback, if_neg (not_le.2 hlength),
                hwaiting, hrows, hlast, answeredAll, hwaits, keysOn]
              rfl
      · refine .inl ⟨?_, fun hserved => hlength (hserved hpage)⟩
        simp only [handle, hlookup, viewQueryCompleteCallback, if_pos (not_lt.1 hlength)]

/-! ## Timeouts -/

omit [LinearOrder κ] in
/-- Expired pages leave the cache, and nothing comes in. -/
lemma mem_of_mem_removeExpired {now : ℤ} {timeouts : List (ℤ × ℕ)}
    {cachedPages : SortedMap ℕ (δ × List κ)} {e : ℕ × δ × List κ}
    (h : e ∈ (removeExpired now timeouts cachedPages).2.entries) : e ∈ cachedPages.entries := by
  induction timeouts generalizing cachedPages with
  | nil => exact h
  | cons t rest ih =>
      rw [removeExpired] at h
      split_ifs at h
      · exact SortedMap.mem_of_mem_erase (ih h)
      · exact h

lemma consistent_timeout {now : ℤ} (h : Consistent view s) :
    Consistent view (s.viewPageCacheTimeoutEventSlot now) where
  cache :=
    { keys := fun cached hcached => h.cache.keys cached (mem_of_mem_removeExpired hcached)
      nonempty := fun cached hcached => h.cache.nonempty cached (mem_of_mem_removeExpired hcached)
      pos := fun cached hcached => h.cache.pos cached (mem_of_mem_removeExpired hcached)
      totalPages := by
        intro hne
        obtain ⟨cached, hcached⟩ := List.exists_mem_of_ne_nil _ hne
        exact h.cache.totalPages (List.ne_nil_of_mem (mem_of_mem_removeExpired hcached)) }
  nodup := h.nodup
  queries := h.queries
  asked := h.asked
  accounted := h.accounted
  right := h.right

/-! ## Runs -/

/-- **One event**: it is served and the state stays consistent, or the code is not defined. -/
lemma handle_cases (event : ViewEvent) (h : Consistent view s) :
    (s.handle view event = none ∧ ¬IsServed view s event) ∨
      IsServed view s event ∧ ∃ s', s.handle view event = some s' ∧ Consistent view s' := by
  cases event with
  | request pageNum =>
      rcases request_cases pageNum h with
        hfails | ⟨hserved, ⟨waiting, hwaiting, hrun⟩ | ⟨hnone, ⟨hne, hrun⟩ | ⟨q, hq, hrun⟩⟩⟩
      · exact .inl hfails
      · exact .inr ⟨hserved, _, hrun, consistent_wait h hwaiting⟩
      · exact .inr ⟨hserved, _, hrun, consistent_respond h hne⟩
      · exact .inr ⟨hserved, _, hrun, consistent_query h hnone hq⟩
  | response pageNum now =>
      rcases response_cases pageNum now h with
        hfails | ⟨hserved, hrun | ⟨q, hsent, hlength, hrun | ⟨hne, lastDocId, hrun⟩⟩⟩
      · exact .inl hfails
      · exact .inr ⟨hserved, s, hrun, h⟩
      · exact .inr ⟨hserved, _, hrun, consistent_answeredAll pageNum h hlength⟩
      · have hall := consistent_answeredAll pageNum h hlength
        exact .inr ⟨hserved, _, hrun,
          consistent_cache hall (h.queries _ hsent).1 hne rfl hlength⟩
  | timeout now => exact .inr ⟨trivial, _, rfl, consistent_timeout h⟩

/-- **Paged queries agree with plain skipping exactly as long as no search in the cache ends at its
end**: unless a request is for a page that is being queried, the cache is empty and what is to be
skipped is an `int`, or the page does not exist, or some cached page is not before it.  The view has
as many rows as an `int` can count when a query is answered.

The state is `none` once the end iterator was looked at, and the condition does not ask for that: it
is about a request and the cache in front of it, and names the cases in which the search finds a
page or is not made. -/
theorem answersCorrectly_iff (view : SortedMap κ δ) (events : List ViewEvent) :
    Machine.HoldsThroughout (step view) (fun s => ∃ t, s = some t ∧ AnswersCorrectly view t)
        (some initial) events ↔
      Machine.StaysWithin (step view) (fun s event => ∃ t, s = some t ∧ IsServed view t event)
        (some initial) events := by
  refine Machine.holdsThroughout_iff_staysWithin
    (I := fun s => ∃ t, s = some t ∧ Consistent view t) (fun _ => True) ?_ ?_
    (fun _ _ => trivial) ⟨_, rfl, consistent_initial view⟩
    ⟨_, rfl, (consistent_initial view).answersCorrectly⟩
  · rintro - event - ⟨t, rfl, hI⟩ - ⟨t', heq, hserved⟩
    obtain rfl := Option.some.inj heq
    rcases handle_cases event hI with ⟨-, hnot⟩ | ⟨-, t', hrun, hI'⟩
    · exact absurd hserved hnot
    · exact ⟨t', hrun, hI'⟩
  · rintro - event - ⟨t, rfl, hI⟩ -
    constructor
    · rintro ⟨t', hrun, -⟩
      rcases handle_cases event hI with ⟨hfails, -⟩ | ⟨hserved, -⟩
      · have hboth : (none : Option (ViewQueries κ δ)) = some t' := hfails.symm.trans hrun
        exact absurd hboth.symm (Option.some_ne_none t')
      · exact ⟨t, rfl, hserved⟩
    · rintro ⟨t', heq, hserved⟩
      obtain rfl := Option.some.inj heq
      rcases handle_cases event hI with ⟨-, hnot⟩ | ⟨-, t', hrun, hI'⟩
      · exact absurd hserved hnot
      · exact ⟨t', hrun, hI'.answersCorrectly⟩

/-- A view of two pages. -/
def twentyRows : SortedMap ℕ ℕ := ⟨(List.range 20).map fun i => (i, i), by decide⟩

/-- The second page is asked for when the first one is all that is cached. -/
theorem nextPage_not_answered :
    ¬Machine.HoldsThroughout (step twentyRows) (fun s => ∃ t, s = some t ∧
        AnswersCorrectly twentyRows t) (some initial)
      [.request ⟨1, by decide, by decide⟩, .response 1 0, .request ⟨2, by decide, by decide⟩] := by
  intro h
  obtain ⟨t, hrun, -⟩ := h.run
  have hnone : (Machine.run (step twentyRows) (some initial)
      [.request ⟨1, by decide, by decide⟩, .response 1 0,
        .request ⟨2, by decide, by decide⟩]).isNone = true := by decide +kernel
  rw [hrun] at hnone
  exact absurd hnone Bool.false_ne_true

end Autobackup.CouchbaseBackend.ViewQueries
