import HomelabMcp.KubernetesClient

/-!
# Lists of the Kubernetes client

`list_cancelled` collects pages under limits of pages and of items, and sorts and cuts what it has
collected.  Its result is compared with the pages it has received.

* `list_law`: it runs kubectl at most five times and ends; if it returns a list, every page was
  well formed (`GoodPage`), and the items are the first of the one stable sort of all of them, with
  exact counts and flags.

The loop keeps one invariant (`Collected`): every page so far was good and had a continuation.
-/

namespace Kubernetes

open Interaction StableSort
open Json (Value)
open Text (Bytes)
open Monitor (history)

variable (parser : Bytes → Option Value) (base : String) (labels : List (String × String))

/-- The JSON of an answer. -/
def pageOf (e : Event Ran) : Option Value :=
  e.2.toOption.bind fun output => parser output.stdout

/-- The pages that were read. -/
def pages (t : Trace Ran) : List Value := t.filterMap (pageOf parser)

/-- The items of a page. -/
def itemsOf (wrapper : Value) : List Value := ((wrapper.get "items").bind Value.asArray).getD []

/-- The items of all pages received. -/
def allItems (t : Trace Ran) : List Value := (pages parser t).flatMap itemsOf

/-- Where a page says that there is more. -/
def continueMember (wrapper : Value) : Option Value :=
  (wrapper.get "metadata").bind fun metadata => metadata.get "continue"

/-- The continuation that a page carries. -/
def tokenOf (wrapper : Value) : Option String :=
  ((continueMember wrapper).bind Value.asStr).filter fun token => !token.isEmpty

/-- The tokens of the pages. -/
def tokens (t : Trace Ran) : List String := (pages parser t).filterMap tokenOf

/-- The continuation of the last page received. -/
def continuationAfter (t : Trace Ran) : Option String := (pages parser t).getLast?.bind tokenOf

/-- What may stand in the place of a continuation: nothing, or a short text without control
characters. -/
inductive Continues : Option Value → Option String → Prop
  | absent : Continues none none
  | null : Continues (some .null) none
  | empty : Continues (some (.string "")) none
  | token {s : String} (hne : s ≠ "") (hsize : s.utf8ByteSize ≤ 4096)
      (hcontrol : Text.noControl s = true) : Continues (some (.string s)) (some s)

/-- A page as the loop accepts it: asked for with what was received before, not longer than asked
for, and with a continuation that is none or new. -/
structure GoodPage (before : Trace Ran) (e : Event Ran) (wrapper : Value) : Prop where
  asked : e.1 = rawRun (listPath base labels (requested (allItems parser before).length)
    (continuationAfter parser before)) .query
  received : pageOf parser e = some wrapper
  items : ∃ page, (wrapper.get "items").bind Value.asArray = some page ∧
    page.length ≤ requested (allItems parser before).length
  metadata : ∃ members, wrapper.get "metadata" = some (.object members)
  continues : Continues (continueMember wrapper) (tokenOf wrapper)
  fresh : ∀ token, tokenOf wrapper = some token → token ∉ tokens parser before

/-- Every page of a trace was good. -/
def Paged (t : Trace Ran) : Prop :=
  ∀ before e after, t = before ++ e :: after →
    ∃ wrapper, GoodPage parser base labels before e wrapper

/-- The next token is read where the page goes on to it. -/
theorem readContinuation_eq_ok {member : Option Value} {next : Option String}
    (h : readContinuation member = .ok next) : Continues member next := by
  unfold readContinuation at h
  split at h
  · exact Except.ok.inj h ▸ .absent
  · exact Except.ok.inj h ▸ .null
  · next value =>
      split_ifs at h with hempty hvalid
      · obtain rfl : value = "" := by simpa using hempty
        exact Except.ok.inj h ▸ .empty
      · simp only [Bool.and_eq_true, decide_eq_true_eq] at hvalid
        exact Except.ok.inj h ▸ .token (by simpa using hempty) hvalid.1 hvalid.2
  · cases h

/-- And it is the token of that page. -/
theorem Continues.token_eq {wrapper : Value} {next : Option String}
    (h : Continues (continueMember wrapper) next) : tokenOf wrapper = next := by
  unfold tokenOf
  generalize continueMember wrapper = member at h
  cases h with
  | absent => rfl
  | null => rfl
  | empty => rfl
  | token hne => simp [Value.asStr, Option.filter, hne]

/-- What `readPage` accepts. -/
theorem readPage_eq_ok {inspected : Nat} {wrapper : Value} {page : List Value}
    {next : Option String} (h : readPage inspected wrapper = .ok (page, next)) :
    page = itemsOf wrapper ∧
      (∃ page, (wrapper.get "items").bind Value.asArray = some page ∧
        page.length ≤ requested inspected) ∧
      (∃ members, wrapper.get "metadata" = some (.object members)) ∧
      Continues (continueMember wrapper) next := by
  obtain ⟨items, hitems, h⟩ := bind_eq_ok.mp h
  obtain ⟨members, hmembers, h⟩ := bind_eq_ok.mp h
  rw [okOr_eq_ok] at hitems hmembers
  obtain ⟨metadata, hmetadata, hobject⟩ := Option.bind_eq_some_iff.mp hmembers
  obtain rfl : metadata = .object members := by
    cases metadata <;> simp_all [Value.asObject]
  split_ifs at h with hlong
  obtain ⟨continuation, hcontinuation, h⟩ := bind_eq_ok.mp h
  obtain ⟨rfl, rfl⟩ := Prod.mk.inj (Except.ok.inj h)
  have hfit : items.length ≤ requested inspected := Nat.not_lt.mp hlong
  have htake : items.take (maxInspected - inspected) = items := by
    refine List.take_of_length_le (hfit.trans ?_)
    exact Nat.min_le_left _ _
  refine ⟨by simp [itemsOf, hitems, htake], ⟨items, hitems, hfit⟩, ⟨members, hmetadata⟩, ?_⟩
  have hmember : continueMember wrapper = members.lookup "continue" := by
    rw [continueMember, hmetadata]
    rfl
  rw [hmember]
  exact readContinuation_eq_ok hcontinuation

section Snoc

variable {parser base labels} {t : Trace Ran} {e : Event Ran} {wrapper : Value}

/-- One page more. -/
theorem pages_snoc (h : pageOf parser e = some wrapper) :
    pages parser (t ++ [e]) = pages parser t ++ [wrapper] := by
  simp [pages, h]

/-- Its items follow the others. -/
theorem allItems_snoc (h : pageOf parser e = some wrapper) :
    allItems parser (t ++ [e]) = allItems parser t ++ itemsOf wrapper := by
  simp [allItems, pages_snoc h]

/-- Its token is where the listing goes on. -/
theorem continuationAfter_snoc (h : pageOf parser e = some wrapper) :
    continuationAfter parser (t ++ [e]) = tokenOf wrapper := by
  simp [continuationAfter, pages_snoc h]

/-- And is the last of the tokens. -/
theorem tokens_snoc (h : pageOf parser e = some wrapper) :
    tokens parser (t ++ [e]) = tokens parser t ++ (tokenOf wrapper).toList := by
  cases htoken : tokenOf wrapper <;> simp [tokens, pages_snoc h, htoken]

/-- Good pages and one more are good pages. -/
theorem Paged.snoc (h : Paged parser base labels t) (he : GoodPage parser base labels t e wrapper) :
    Paged parser base labels (t ++ [e]) := by
  intro before d after hsplit
  rcases List.eq_nil_or_concat after with rfl | ⟨after, last, rfl⟩
  · obtain ⟨rfl, heq⟩ := List.append_inj' hsplit rfl
    obtain rfl := List.singleton_injective heq
    exact ⟨wrapper, he⟩
  · have hassoc : before ++ d :: (after ++ [last]) = (before ++ d :: after) ++ [last] := by simp
    rw [List.concat_eq_append, hassoc] at hsplit
    exact h before d after (List.append_inj' hsplit rfl).1

end Snoc

/-- What the loop has collected when `left` pages are left. -/
structure Collected (t : Trace Ran) (left : Nat) (items : List Value)
    (continuation : Option String) (seen : List String) : Prop where
  paged : Paged parser base labels t
  items_eq : items = allItems parser t
  length : t.length + left = maxPages
  size : items.length ≤ maxInspected
  continuation_eq : continuation = continuationAfter parser t
  seen_iff : ∀ token, token ∈ seen ↔ token ∈ tokens parser t
  continued : t ≠ [] → continuation.isSome = true

/-- How the loop has ended. -/
structure Listed (t : Trace Ran) (listing : Listing) : Prop where
  paged : Paged parser base labels t
  nonempty : t ≠ []
  length : t.length ≤ maxPages
  items_eq : listing.items = allItems parser t
  size : listing.items.length ≤ maxInspected
  pages_eq : listing.pages = t.length
  sourceTruncated_eq : listing.sourceTruncated = (continuationAfter parser t).isSome

/-- Before each request there are fewer than five answers and at most 500 items, and it asks for
what is left of these after the last continuation. -/
def mayList (t : Trace Ran) (run : Run) : Prop :=
  t.length < maxPages ∧ (allItems parser t).length ≤ maxInspected ∧
    run = rawRun (listPath base labels (requested (allItems parser t).length)
      (continuationAfter parser t)) .query

variable {parser base labels}

/-- Before the first page nothing has been collected. -/
theorem collected_start : Collected parser base labels [] maxPages [] none [] where
  paged before e after h := absurd h (by simp)
  items_eq := rfl
  length := rfl
  size := Nat.zero_le _
  continuation_eq := rfl
  seen_iff token := Iff.rfl
  continued h := absurd rfl h

section Loop

variable {t : Trace Ran} {left : Nat} {items : List Value} {continuation : Option String}
    {seen : List String} {e : Event Ran} {wrapper : Value}

/-- The loop stops before another page. -/
theorem Collected.stop (h : Collected parser base labels t left items continuation seen)
    (hne : t ≠ []) {pages : Nat} (hpages : pages = t.length) {truncated : Bool}
    (htruncated : truncated = continuation.isSome) :
    Listed parser base labels t ⟨items, pages, truncated⟩ where
  paged := h.paged
  nonempty := hne
  length := by
    have := h.length
    omega
  items_eq := h.items_eq
  size := h.size
  pages_eq := hpages
  sourceTruncated_eq := by rw [htruncated, h.continuation_eq]

/-- The items stay within their bound. -/
theorem Collected.size_page
    (h : Collected parser base labels t (left + 1) items continuation seen)
    (hpage : GoodPage parser base labels t e wrapper) :
    (items ++ itemsOf wrapper).length ≤ maxInspected := by
  obtain ⟨page, hitems, hfit⟩ := hpage.items
  have hwrapper : itemsOf wrapper = page := by simp [itemsOf, hitems]
  have hsize := h.size
  rw [← h.items_eq] at hfit
  rw [List.length_append, hwrapper]
  unfold requested at hfit
  omega

/-- The loop stops with the page it has received. -/
theorem Collected.last
    (h : Collected parser base labels t (left + 1) items continuation seen)
    (hpage : GoodPage parser base labels t e wrapper) (htoken : tokenOf wrapper = none) :
    Listed parser base labels (t ++ [e])
      ⟨items ++ itemsOf wrapper, maxPages - left, false⟩ where
  paged := h.paged.snoc hpage
  nonempty := by simp
  length := by
    have := h.length
    simp only [List.length_append, List.length_singleton]
    omega
  items_eq := by rw [allItems_snoc hpage.received, h.items_eq]
  size := h.size_page hpage
  pages_eq := by
    have := h.length
    simp only [List.length_append, List.length_singleton]
    omega
  sourceTruncated_eq := by
    rw [continuationAfter_snoc hpage.received, htoken]
    rfl

/-- The loop goes on with the continuation it has received. -/
theorem Collected.page
    (h : Collected parser base labels t (left + 1) items continuation seen)
    (hpage : GoodPage parser base labels t e wrapper) {token : String}
    (htoken : tokenOf wrapper = some token) :
    Collected parser base labels (t ++ [e]) left (items ++ itemsOf wrapper) (some token)
      (token :: seen) where
  paged := h.paged.snoc hpage
  items_eq := by rw [allItems_snoc hpage.received, h.items_eq]
  length := by
    have := h.length
    simp only [List.length_append, List.length_singleton]
    omega
  size := h.size_page hpage
  continuation_eq := by rw [continuationAfter_snoc hpage.received, htoken]
  seen_iff s := by
    rw [tokens_snoc hpage.received, htoken, List.mem_append, List.mem_cons, h.seen_iff,
      Option.toList_some, List.mem_singleton]
    exact Or.comm
  continued _ := rfl

/-- A loop that has fewer pages left than at first, or holds an item, has received a page. -/
theorem Collected.nonempty (h : Collected parser base labels t left items continuation seen)
    (hsome : left < maxPages ∨ items ≠ []) : t ≠ [] := by
  intro ht
  subst ht
  have hlength := h.length
  have hitems : items = [] := h.items_eq
  rcases hsome with hleft | hne
  · rw [List.length_nil] at hlength
    omega
  · exact hne hitems

/-- The request of the loop is the one for the next page. -/
theorem Collected.asked (h : Collected parser base labels t left items continuation seen) :
    rawRun (listPath base labels (requested items.length) continuation) .query =
      rawRun (listPath base labels (requested (allItems parser t).length)
        (continuationAfter parser t)) .query := by
  rw [h.items_eq, h.continuation_eq]

/-- A page that was read, with a token that was not seen before, is a good one. -/
theorem Collected.goodPage (h : Collected parser base labels t left items continuation seen)
    {output : Output} {page : List Value} {next : Option String}
    (hparse : parseJson parser output.stdout = .ok wrapper)
    (hread : readPage items.length wrapper = .ok (page, next))
    (hfresh : ∀ token, next = some token → token ∉ seen) :
    GoodPage parser base labels t
      ⟨rawRun (listPath base labels (requested items.length) continuation) .query, .ok output⟩
      wrapper := by
  obtain ⟨-, hitems, hmetadata, hcontinues⟩ := readPage_eq_ok hread
  have htoken := hcontinues.token_eq
  exact {
    asked := h.asked
    received := okOr_eq_ok.mp hparse
    items := h.items_eq ▸ hitems
    metadata := hmetadata
    continues := htoken ▸ hcontinues
    fresh := fun token hnext => by
      rw [htoken] at hnext
      rw [← h.seen_iff]
      exact hfresh token hnext }

/-- The loop keeps what has been collected, page after page. -/
theorem listFrom_spec (left : Nat)
    (h : Collected parser base labels t left items continuation seen) :
    (history (mayList parser base labels)).wp
      (listFrom parser base labels left items continuation seen).run t
      fun t' r => t'.length ≤ maxPages ∧
        ∀ listing, r = .ok listing → Listed parser base labels t' listing := by
  induction left generalizing t items continuation seen with
  | zero =>
      have hlength := h.length
      have hne : t ≠ [] := h.nonempty (.inl (by decide))
      refine ⟨hlength.le, fun listing hok => ?_⟩
      obtain rfl := Except.ok.inj hok
      exact h.stop hne (by omega) (h.continued hne).symm
  | succ left ih =>
      have hlength := h.length
      unfold listFrom
      split_ifs with hfull
      · have hne : t ≠ [] := h.nonempty (.inr fun hnil => by simp [hnil, maxInspected] at hfull)
        refine ⟨by omega, fun listing hok => ?_⟩
        obtain rfl := Except.ok.inj hok
        exact h.stop hne (by omega) rfl
      refine ⟨⟨by omega, h.items_eq ▸ h.size, h.asked⟩, fun result => ?_⟩
      have hsent : (t ++ [(⟨_, result⟩ : Event Ran)]).length ≤ maxPages := by
        simp only [List.length_append, List.length_singleton]
        omega
      show (history _).wp ((answer (result.map Output.stdout)) >>= _).run _ _
      rw [Monitor.wp_run_bind, Monitor.wp_run_answer]
      rcases result with error | output
      · exact ⟨hsent, nofun⟩
      show (history _).wp (answer (parseJson parser output.stdout) >>= _).run _ _
      rw [Monitor.wp_run_bind, Monitor.wp_run_answer]
      cases hparse : parseJson parser output.stdout with
      | error error => exact ⟨hsent, nofun⟩
      | ok wrapper =>
          show (history _).wp (answer (readPage items.length wrapper) >>= _).run _ _
          rw [Monitor.wp_run_bind, Monitor.wp_run_answer]
          cases hread : readPage items.length wrapper with
          | error error => exact ⟨hsent, nofun⟩
          | ok read =>
              obtain ⟨page, next⟩ := read
              obtain ⟨rfl, -, -, hcontinues⟩ := readPage_eq_ok hread
              have htoken := hcontinues.token_eq
              cases next with
              | none =>
                  refine ⟨hsent, fun listing hok => ?_⟩
                  obtain rfl := Except.ok.inj hok
                  exact h.last (h.goodPage hparse hread nofun) htoken
              | some token =>
                  dsimp only
                  rw [Monitor.wp_run_bind]
                  refine Monitor.wp_run_ensure _ (fun hnew => ?_) fun _ => ⟨hsent, nofun⟩
                  have hfresh : ∀ s, some token = some s → s ∉ seen := by
                    intro s hs
                    obtain rfl := Option.some.inj hs
                    simpa using hnew
                  exact ih (h.page (h.goodPage hparse hread hfresh) htoken)

end Loop

/-- A list as it is returned: the items are the first of the stable sort, by namespace and name, of
all items received, normalized; counts and flags are exact. -/
structure ListLaw (parser : Bytes → Option Value) (query : ResourceQuery) (t : Trace Ran)
    (list : ResourceList) : Prop where
  paged : ∃ base, objectPath query.kind query.ns none = .ok base ∧
    Paged parser base query.labels t
  items : ∃ normalized sorted,
    (allItems parser t).mapM (resource query.kind) = .ok normalized ∧
    (∀ l, IsStableSort Resource.place normalized l ↔ l = sorted) ∧
    list.items = sorted.take query.limit.toNat
  pages : list.metadata.pages.toNat = t.length
  inspected : list.metadata.inspected.toNat = (allItems parser t).length
  inspected_le : (allItems parser t).length ≤ maxInspected
  returned : list.metadata.returned.toNat = list.items.length
  resultTruncated : list.metadata.resultTruncated = true ↔
    (allItems parser t).length > query.limit.toNat
  sourceTruncated : ∃ last, (Kubernetes.pages parser t).getLast? = some last ∧
    (list.metadata.sourceTruncated = false ↔ tokenOf last = none)
  truncated : list.metadata.truncated = (list.metadata.sourceTruncated ||
    list.metadata.resultTruncated || list.metadata.aggregateTruncated)

/-- The last page of a list. -/
theorem Listed.last_page {t : Trace Ran} {listing : Listing}
    (h : Listed parser base labels t listing) :
    ∃ last, (pages parser t).getLast? = some last ∧
      (listing.sourceTruncated = false ↔ tokenOf last = none) := by
  obtain ⟨before, e, rfl⟩ := (List.eq_nil_or_concat t).resolve_left h.nonempty
  rw [List.concat_eq_append] at h
  obtain ⟨wrapper, hpage⟩ := h.paged before e [] rfl
  refine ⟨wrapper, by simp [pages_snoc hpage.received], ?_⟩
  rw [h.sourceTruncated_eq, continuationAfter_snoc hpage.received]
  simp

/-- What is returned follows from what was collected. -/
theorem listResult_law {query : ResourceQuery} (hkind : query.kind ≠ .event) {t : Trace Ran}
    {listing : Listing} {normalized : List Resource}
    (hbase : objectPath query.kind query.ns none = .ok base)
    (h : Listed parser base query.labels t listing)
    (hnormalized : listing.items.mapM (resource query.kind) = .ok normalized) :
    ListLaw parser query t (listResult query listing normalized) := by
  have hlength := (forall₂_of_mapM hnormalized).length_eq.symm
  have hsorted := (sortByKey_isStableSort Resource.place normalized).perm.length_eq
  have hsize := h.size
  have hpages := h.length
  unfold maxInspected at hsize
  unfold maxPages at hpages
  rw [h.items_eq] at hnormalized hlength hsize
  simp only [listResult, if_neg hkind]
  exact {
    paged := ⟨base, hbase, h.paged⟩
    items := ⟨normalized, _, hnormalized, fun l => isStableSort_iff Resource.place, rfl⟩
    pages := by
      rw [h.pages_eq]
      exact Nat.mod_eq_of_lt (by omega)
    inspected := by
      rw [h.items_eq]
      exact Nat.mod_eq_of_lt (by omega)
    inspected_le := hsize
    returned := by
      refine Nat.mod_eq_of_lt ?_
      rw [List.length_take]
      omega
    resultTruncated := by
      rw [hsorted, hlength]
      exact decide_eq_true_iff
    sourceTruncated := h.last_page
    truncated := rfl }

/-- A list runs kubectl only where its objects are, and then as its loop does. -/
theorem listCancelled_spec (parser : Bytes → Option Value) {query : ResourceQuery} {base : String}
    (hbase : objectPath query.kind query.ns none = .ok base) :
    (history (mayList parser base query.labels)).wp (listCancelled parser query).run [] fun t r =>
      t.length ≤ maxPages ∧
        ∀ list, r = .ok list → query.kind ≠ .event → ListLaw parser query t list := by
  unfold listCancelled
  rw [Monitor.wp_run_bind, Monitor.wp_run_answer, hbase]
  dsimp only
  rw [Monitor.wp_run_bind]
  refine Monitor.wp_mono _ (listFrom_spec maxPages collected_start) fun t r hlisted => ?_
  obtain ⟨hlength, hlisted⟩ := hlisted
  cases r with
  | error e => exact ⟨hlength, nofun⟩
  | ok listing =>
      dsimp only
      rw [Monitor.wp_run_bind, Monitor.wp_run_answer]
      cases hnormalized : listing.items.mapM (resource query.kind) with
      | error e => exact ⟨hlength, nofun⟩
      | ok normalized =>
          refine ⟨hlength, fun list hok hkind => ?_⟩
          obtain rfl := Except.ok.inj hok
          exact listResult_law hkind hbase (hlisted listing rfl) hnormalized

/-- Without the path of its objects, a list is an error at once. -/
theorem listCancelled_error (parser : Bytes → Option Value) {query : ResourceQuery} {e : Error}
    (hbase : objectPath query.kind query.ns none = .error e) :
    (listCancelled parser query).run = .done (.error e) := by
  unfold listCancelled
  rw [hbase]
  rfl

/-- Every request of a list is for a page: of what is left, after the last continuation. -/
theorem listCancelled_pending (parser : Bytes → Option Value) (query : ResourceQuery)
    {t : Trace Ran} {run : Run} {next : Ran run → Program Run Ran (Except Error ResourceList)}
    (h : Reaches (listCancelled parser query).run t (.call run next)) :
    ∃ base, objectPath query.kind query.ns none = .ok base ∧
      mayList parser base query.labels t run := by
  cases hbase : objectPath query.kind query.ns none with
  | error e =>
      rw [listCancelled_error parser hbase] at h
      cases h
  | ok base => exact ⟨base, rfl, Monitor.history_pending h (listCancelled_spec parser hbase)⟩

/-- A list that has ended has the pages it may have, and its result is as the law says. -/
theorem listCancelled_finished (parser : Bytes → Option Value) (query : ResourceQuery)
    {t : Trace Ran} {r : Except Error ResourceList}
    (h : Reaches (listCancelled parser query).run t (.done r)) : t.length ≤ maxPages ∧
      ∀ list, r = .ok list → query.kind ≠ .event → ListLaw parser query t list := by
  cases hbase : objectPath query.kind query.ns none with
  | error e =>
      rw [listCancelled_error parser hbase] at h
      cases h
      exact ⟨Nat.zero_le _, nofun⟩
  | ok base => exact Monitor.history_finished h (listCancelled_spec parser hbase)

/-- **The law of lists.** -/
theorem list_law (parser : Bytes → Option Value) (query : ResourceQuery)
    (hkind : query.kind ≠ .event) :
    (∀ t q, Reaches (listCancelled parser query).run t q →
      t.length ≤ maxPages ∧ (t.length = maxPages → ∃ r, q = .done r)) ∧
    (∀ t run next, Reaches (listCancelled parser query).run t (.call run next) →
      (allItems parser t).length ≤ maxInspected) ∧
    (∀ t list, Reaches (listCancelled parser query).run t (.done (.ok list)) →
      ListLaw parser query t list) := by
  refine ⟨fun t q h => ?_, fun t run next h => ?_, fun t list h => ?_⟩
  · cases q with
    | done r => exact ⟨(listCancelled_finished parser query h).1, fun _ => ⟨r, rfl⟩⟩
    | call run next =>
        obtain ⟨base, -, hlt, -⟩ := listCancelled_pending parser query h
        exact ⟨hlt.le, fun hmax => absurd hmax hlt.ne⟩
  · obtain ⟨base, -, -, hsize, -⟩ := listCancelled_pending parser query h
    exact hsize
  · exact (listCancelled_finished parser query h).2 list rfl hkind

/-- A pod with nothing but its identity. -/
def podObject (name : String) : Value := .object [("metadata", .object [
  ("name", .string name), ("namespace", .string "ns"), ("uid", .string "uid")])]

/-- The text of such a pod. -/
def podText (name : String) : String :=
  "\x7b\"metadata\":\x7b\"name\":\"" ++ name ++ "\",\"namespace\":\"ns\",\"uid\":\"uid\"\x7d\x7d"

/-- A page with two pods, which goes on. -/
def firstPods : Bytes := Text.ascii ("\x7b\"items\":[" ++ podText "b" ++ "," ++ podText "c" ++
  "],\"metadata\":\x7b\"continue\":\"more\"\x7d\x7d")

/-- The last page, whose pod comes first in the sort. -/
def lastPods : Bytes :=
  Text.ascii ("\x7b\"items\":[" ++ podText "a" ++ "],\"metadata\":\x7b\x7d\x7d")

/-- A parser that knows the two pages. -/
def podPages (bytes : Bytes) : Option Value :=
  if bytes = firstPods then some (.object [("items", .array [podObject "b", podObject "c"]),
    ("metadata", .object [("continue", .string "more")])])
  else if bytes = lastPods then
    some (.object [("items", .array [podObject "a"]), ("metadata", .object [])])
  else none

/-- The pods of a namespace, two at most. -/
def podsQuery : ResourceQuery := ⟨.pod, some "ns", none, [], 2⟩

/-- A kubectl that gives the first page, and the last to who goes on. -/
def respondPods (run : Run) : Ran run :=
  if run = rawRun (listPath "/api/v1/namespaces/ns/pods" [] 100 none) .query then .ok ⟨firstPods⟩
  else .ok ⟨lastPods⟩

/-- The list of the pods, as far as so many steps. -/
def podList (steps : Nat) : Trace Ran × Program Run Ran (Except Error ResourceList) :=
  (listCancelled podPages podsQuery).run.answered respondPods steps

/-- Three pods on two pages are sorted, and the last of them is cut off. -/
theorem list_law_pods : ∃ list : ResourceList, list.items.map Resource.name = ["a", "b"] ∧
    list.metadata = ⟨2, 3, 2, false, true, false, true⟩ ∧
    (allItems podPages (podList 1).1).length ≤ maxInspected ∧
    (podList 2).1.length ≤ maxPages ∧ ListLaw podPages podsQuery (podList 2).1 list := by
  obtain ⟨hlength, hinspected, hlist⟩ := list_law podPages podsQuery (by decide)
  have hnames : ((podList 2).2.ended.bind Except.toOption).map
      (fun list => (list.items.map Resource.name, list.metadata)) =
        some (["a", "b"], ⟨2, 3, 2, false, true, false, true⟩) := by decide +kernel
  obtain ⟨list, hended, hvalue⟩ := Option.map_eq_some_iff.mp hnames
  obtain ⟨outcome, hdone, houtcome⟩ := Option.bind_eq_some_iff.mp hended
  cases outcome with
  | error e => cases houtcome
  | ok value =>
      obtain rfl := Option.some.inj houtcome
      obtain ⟨hitems, hmetadata⟩ := Prod.mk.inj hvalue
      have hrun := Program.answered_ended respondPods 2 _ hdone
      obtain ⟨run, next, hpending⟩ := Program.answered_pending respondPods 1
        (listCancelled podPages podsQuery).run (by decide +kernel)
      exact ⟨value, hitems, hmetadata, hinspected _ _ _ hpending, (hlength _ _ hrun).1,
        hlist _ _ hrun⟩

end Kubernetes
