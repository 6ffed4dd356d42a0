import HomelabMcp.TektonClient

/-!
# Lists of the Tekton client

`kube_list` collects pages under a limit of items and of pages.  What it returns is compared with
the pages it has received (`allItems`).

* `kube_list_law`: it sends at most ten requests, and it keeps what it says of its result exactly
  when the page that ends the list leaves no doubt: it fits, and it carries no continuation.
* `number_ends_list`: a page whose continuation is a number ends the list, and the result says that
  the list is whole.

The loop keeps one invariant (`Collected`): the items are the first of all received, and every
page so far had a continuation.
-/

namespace Tekton

open Interaction
open Http (Exchange)
open Json (Value)
open WebUrl (Url)
open Monitor (history)

variable {crates : Crates} {client : TektonClient} {may : Trace Ans → Op → Prop} {t : Trace Ans}

/-- Whether an operation is a request. -/
def Op.isSend : Op → Bool
  | .send _ _ => true
  | .readToken | .tryAcquire | .release => false

/-- The requests of a trace with their answers. -/
def requests (t : Trace Ans) : List (Request × Exchange) :=
  t.filterMap fun
    | ⟨.send _ request, exchange⟩ => some (request, exchange)
    | _ => none

/-- The JSON values received. -/
def pages (crates : Crates) (t : Trace Ans) : List Value :=
  (requests t).filterMap fun (_, exchange) => (jsonReply crates .read exchange).toOption

/-- The items of a page. -/
def itemsOf (wrapper : Value) : List Value := (wrapper.field "items").asArray.getD []

/-- The items of all pages received. -/
def allItems (crates : Crates) (t : Trace Ans) : List Value := (pages crates t).flatMap itemsOf

/-- The requests of both stretches, in order. -/
theorem requests_append (t u : Trace Ans) : requests (t ++ u) = requests t ++ requests u :=
  List.filterMap_append

/-- Other operations are no requests. -/
theorem requests_quiet {u : Trace Ans} (h : ∀ e ∈ u, e.1.isSend = false) : requests u = [] := by
  refine List.filterMap_eq_nil_iff.mpr fun e he => ?_
  obtain ⟨op, answer⟩ := e
  cases op with
  | send kind request => cases h _ he
  | _ => rfl

/-- A request for JSON: it fails before it is sent, or it is sent and answered. -/
def Asked (crates : Crates) (url : Url) (t t' : Trace Ans) (r : Except Error Value) : Prop :=
  ∃ u : Trace Ans, (∀ e ∈ u, e.1.isSend = false) ∧
    ((t' = t ++ u ∧ ∃ e, r = .error e) ∨
      ∃ token exchange,
        t' = t ++ u ++ [⟨.send .read ⟨.get, url, token, none⟩, exchange⟩, ⟨.release, ()⟩] ∧
        r = jsonReply crates .read exchange)

/-- A GET asks for its URL, if the monitor lets it. -/
theorem kubeJson_spec {path : String} {query : List (String × String)}
    (hquiet : ∀ t op, op.isSend = false → may t op)
    (hsend : ∀ u token, (∀ e ∈ u, e.1.isSend = false) →
      may (t ++ u) (.send .read ⟨.get, client.kubeUrl path query, token, none⟩)) :
    (history may).wp (client.kubeJson crates .get path query none .read).run t
      (Asked crates (client.kubeUrl path query) t) := by
  unfold TektonClient.kubeJson
  refine ⟨hquiet _ _ rfl, fun content => ?_⟩
  show (history may).wp (answer (serviceToken content) >>= _).run _ _
  rw [Monitor.wp_run_bind, Monitor.wp_run_answer]
  cases serviceToken content with
  | error e => exact ⟨[⟨.readToken, content⟩], by simp [Op.isSend], .inl ⟨rfl, e, rfl⟩⟩
  | ok token =>
      refine ⟨hquiet _ _ rfl, fun granted => ?_⟩
      have hu : ∀ e ∈ ([⟨.readToken, content⟩, ⟨.tryAcquire, granted⟩] : Trace Ans),
          e.1.isSend = false := by simp [Op.isSend]
      cases granted with
      | false => exact ⟨_, hu, .inl ⟨by simp, _, rfl⟩⟩
      | true =>
          refine ⟨by simpa using hsend _ token hu, fun exchange => ⟨hquiet _ _ rfl, fun ⟨⟩ => ?_⟩⟩
          have hasked : ∀ r, r = jsonReply crates .read exchange → Asked crates
              (client.kubeUrl path query) t (t ++ [⟨.readToken, content⟩] ++ [⟨.tryAcquire, true⟩] ++
                [⟨.send .read ⟨.get, client.kubeUrl path query, token, none⟩, exchange⟩] ++
                [⟨.release, ()⟩]) r :=
            fun r hr => ⟨_, hu, .inr ⟨token, exchange, by simp, hr⟩⟩
          unfold jsonReply at hasked
          show (history may).wp (answer (reply .read maxResponseBytes exchange) >>= fun bytes =>
            answer (parsed crates .read bytes)).run _ _
          rw [Monitor.wp_run_bind, Monitor.wp_run_answer]
          cases hreply : reply .read maxResponseBytes exchange with
          | error e => exact hasked _ (by rw [hreply]; rfl)
          | ok bytes => exact hasked _ (by rw [hreply]; rfl)

/-- What a request adds to what was received. -/
theorem Asked.received {url : Url} {t' : Trace Ans} {r : Except Error Value}
    (h : Asked crates url t t' r) :
    (requests t').length ≤ (requests t).length + 1 ∧
      pages crates t' = pages crates t ++ r.toOption.toList := by
  obtain ⟨u, hu, ⟨rfl, e, rfl⟩ | ⟨token, exchange, rfl, rfl⟩⟩ := h
  · simp [pages, requests_append, requests_quiet hu, Except.toOption]
  · have hrequests : requests (t ++ u ++ [⟨.send .read ⟨.get, url, token, none⟩, exchange⟩,
        ⟨.release, ()⟩]) = requests t ++ [(⟨.get, url, token, none⟩, exchange)] := by
      rw [requests_append, requests_append, requests_quiet hu, List.append_nil]
      rfl
    rw [pages, hrequests]
    refine ⟨by simp, ?_⟩
    cases h : jsonReply crates .read exchange <;> simp [pages, h, Except.toOption]

/-- The continuation of the last page received. -/
def lastPage (crates : Crates) (t : Trace Ans) : Option Value := (pages crates t).getLast?

/-- What the loop has collected when `left` pages are left. -/
structure Collected (crates : Crates) (t : Trace Ans) (left : Nat) (items : List Value)
    (continuation : Option String) : Prop where
  items_eq : items = (allItems crates t).take maxKubeListItems
  pages_length : (pages crates t).length + left = maxKubeListPages
  requests_length : (requests t).length + left ≤ maxKubeListPages
  continued : ∀ wrapper, lastPage crates t = some wrapper →
    (wrapper.field "items").asArray.isSome ∧ continuationOf wrapper = continuation ∧
      continuation.isSome

/-- How a list has ended. -/
def Listed (crates : Crates) (t : Trace Ans) : Except Error (List Value × Bool) → Prop
  | .ok (items, truncated) => items = (allItems crates t).take maxKubeListItems ∧
      ∃ wrapper, lastPage crates t = some wrapper ∧ (wrapper.field "items").asArray.isSome ∧
        truncated = (continuationOf wrapper).isSome
  | .error _ => ∀ wrapper, lastPage crates t = some wrapper →
      (wrapper.field "items").asArray = none ∨ (continuationOf wrapper).isSome

/-- Fewer than ten requests were sent before another. -/
def mayList (t : Trace Ans) (op : Op) : Prop :=
  op.isSend = true → (requests t).length < maxKubeListPages

/-- With a page received there is a last one. -/
theorem lastPage_isSome (crates : Crates) (h : pages crates t ≠ []) :
    ∃ wrapper, lastPage crates t = some wrapper :=
  ⟨_, List.getLast?_eq_some_getLast h⟩

/-- A page more. -/
theorem Collected.page {t' : Trace Ans} {left : Nat} {items page : List Value}
    {continuation : Option String} {wrapper : Value} {token : String}
    (h : Collected crates t (left + 1) items continuation)
    (hrequests : (requests t').length ≤ (requests t).length + 1)
    (hpages : pages crates t' = pages crates t ++ [wrapper])
    (hitems : items ++ page.take (maxKubeListItems - items.length) =
      (allItems crates t').take maxKubeListItems)
    (hpage : (wrapper.field "items").asArray = some page)
    (htoken : continuationOf wrapper = some token) :
    Collected crates t' left (items ++ page.take (maxKubeListItems - items.length))
      (some token) where
  items_eq := hitems
  pages_length := by
    have := h.pages_length
    rw [hpages, List.length_append, List.length_singleton]
    omega
  requests_length := by
    have := h.requests_length
    omega
  continued last hlast := by
    rw [lastPage, hpages, List.getLast?_concat] at hlast
    obtain rfl := Option.some.inj hlast
    exact ⟨by simp [hpage], htoken, rfl⟩

/-- The items that fit, with those of one more page. -/
theorem items_page {t' : Trace Ans} {items page : List Value} {wrapper : Value}
    (hitems : items = (allItems crates t).take maxKubeListItems)
    (hpages : pages crates t' = pages crates t ++ [wrapper])
    (hpage : (wrapper.field "items").asArray = some page) :
    items ++ page.take (maxKubeListItems - items.length) =
      (allItems crates t').take maxKubeListItems := by
  have hall : allItems crates t' = allItems crates t ++ page := by
    simp [allItems, hpages, itemsOf, hpage]
  have hleft : maxKubeListItems - items.length =
      maxKubeListItems - (allItems crates t).length := by
    rw [hitems, List.length_take]
    omega
  rw [hall, List.take_append, hleft, hitems]

/-- The loop keeps what has been collected. -/
theorem kubeListFrom_spec {path : String} {selector : Option String} (left : Nat)
    {items : List Value} {continuation : Option String} {seen : List String}
    (h : Collected crates t left items continuation) :
    (history mayList).wp
      (client.kubeListFrom crates path selector left items continuation seen).run t
      fun t' r => (requests t').length ≤ maxKubeListPages ∧ Listed crates t' r := by
  induction left generalizing t items continuation seen with
  | zero =>
      have hpages := h.pages_length
      obtain ⟨wrapper, hlast⟩ := lastPage_isSome (t := t) crates fun hnil => by
        simp [hnil, maxKubeListPages] at hpages
      obtain ⟨hitems, hcontinued, hsome⟩ := h.continued wrapper hlast
      exact ⟨h.requests_length, h.items_eq, wrapper, hlast, hitems, by rw [hcontinued, hsome]⟩
  | succ left ih =>
      have hrequests := h.requests_length
      unfold TektonClient.kubeListFrom
      split_ifs with hfull
      · obtain ⟨wrapper, hlast⟩ := lastPage_isSome (t := t) crates fun hnil => by
          have hitems := h.items_eq
          simp [allItems, hnil] at hitems
          simp [hitems, maxKubeListItems] at hfull
        obtain ⟨hitems, hcontinued, -⟩ := h.continued wrapper hlast
        exact ⟨by omega, h.items_eq, wrapper, hlast, hitems, by rw [hcontinued]⟩
      rw [Monitor.wp_run_bind]
      refine Monitor.wp_mono _ (kubeJson_spec ?_ ?_) fun t' r hasked => ?_
      · intro t op hop hsend
        rw [hop] at hsend
        cases hsend
      · intro u token hu _
        rw [requests_append, requests_quiet hu, List.append_nil]
        omega
      obtain ⟨hsent, hpages⟩ := hasked.received
      rcases r with e | wrapper
      · refine ⟨by omega, fun wrapper hlast => .inr ?_⟩
        rw [lastPage, hpages, Except.toOption, Option.toList_none, List.append_nil] at hlast
        obtain ⟨-, hcontinued, hsome⟩ := h.continued wrapper hlast
        rwa [hcontinued]
      replace hpages : pages crates t' = pages crates t ++ [wrapper] := hpages
      have hlast : lastPage crates t' = some wrapper := by simp [lastPage, hpages]
      show (history mayList).wp (answer (addPage items _ wrapper) >>= _).run _ _
      rw [Monitor.wp_run_bind, Monitor.wp_run_answer]
      unfold addPage
      cases hpage : (wrapper.field "items").asArray with
      | none =>
          refine ⟨by omega, fun last hlast' => .inl ?_⟩
          obtain rfl := Option.some.inj (hlast.symm.trans hlast')
          exact hpage
      | some page =>
          have hitems := items_page h.items_eq hpages hpage
          dsimp only
          cases htoken : continuationOf wrapper with
          | none =>
              exact ⟨by omega, hitems, wrapper, hlast, by simp [hpage], by simp [htoken]⟩
          | some token =>
              dsimp only
              rw [Monitor.wp_run_bind]
              refine Monitor.wp_run_ensure _ (fun _ => ih (h.page hsent hpages hitems hpage htoken))
                fun _ => ⟨by omega, fun last hlast' => .inr ?_⟩
              obtain rfl := Option.some.inj (hlast.symm.trans hlast')
              rw [htoken]
              rfl

/-- Before the first page nothing has been. -/
theorem collected_start : Collected crates [] maxKubeListPages [] none where
  items_eq := rfl
  pages_length := rfl
  requests_length := Nat.le_refl _
  continued _ hlast := by cases hlast

/-- A list asks for at most so many pages, and ends as the law says. -/
theorem kubeList_spec {path : String} {selector : Option String} :
    (history mayList).wp (client.kubeList crates path selector).run []
      fun t r => (requests t).length ≤ maxKubeListPages ∧ Listed crates t r :=
  kubeListFrom_spec maxKubeListPages collected_start

/-- The page carries no continuation: none at all, or null, or the empty string. -/
def NoContinuation (wrapper : Value) : Prop :=
  (wrapper.field "metadata").field "continue" = .null ∨
    (wrapper.field "metadata").field "continue" = .string ""

/-- What `kube_list` says of its result: without the flag, the items are all items received and the
last page carried no continuation; with it, they are the first of them. -/
def ListLaw (crates : Crates) (t : Trace Ans) : Except Error (List Value × Bool) → Prop
  | .ok (items, false) => items = allItems crates t ∧ items.length ≤ maxKubeListItems ∧
      ∃ wrapper, lastPage crates t = some wrapper ∧ NoContinuation wrapper
  | .ok (items, true) => items <+: allItems crates t ∧ items.length ≤ maxKubeListItems
  | .error _ => True

/-- The condition on the pages received: if the last one has items and no string to go on with,
then all items received fit, and it carries no continuation of another kind either. -/
def EndsWhole (crates : Crates) (t : Trace Ans) : Prop :=
  ∀ wrapper, lastPage crates t = some wrapper → (wrapper.field "items").asArray.isSome →
    continuationOf wrapper = none →
    (allItems crates t).length ≤ maxKubeListItems ∧ NoContinuation wrapper

/-- The law holds where the last page ends whole. -/
theorem listLaw_iff {r : Except Error (List Value × Bool)} (h : Listed crates t r) :
    ListLaw crates t r ↔ EndsWhole crates t := by
  rcases r with e | ⟨items, truncated⟩
  · refine iff_of_true trivial fun wrapper hlast hitems hcontinued => ?_
    rcases h wrapper hlast with hnone | hsome
    · simp [hnone] at hitems
    · simp [hcontinued] at hsome
  · obtain ⟨hitems, wrapper, hlast, hpage, hflag⟩ := h
    have hlength : items.length ≤ maxKubeListItems := by
      rw [hitems]
      exact List.length_take_le _ _
    cases htoken : continuationOf wrapper with
    | none =>
        obtain rfl : truncated = false := by rw [hflag, htoken]; rfl
        constructor
        · rintro ⟨hall, -, last, hlast', hno⟩ other hother - -
          obtain rfl := Option.some.inj (hlast'.symm.trans hother)
          exact ⟨hall ▸ hlength, hno⟩
        · intro hends
          obtain ⟨hfit, hno⟩ := hends wrapper hlast hpage htoken
          exact ⟨hitems.trans (List.take_of_length_le hfit), hlength, wrapper, hlast, hno⟩
    | some token =>
        obtain rfl : truncated = true := by rw [hflag, htoken]; rfl
        refine iff_of_true ⟨hitems ▸ List.take_prefix _ _, hlength⟩ fun other hother _ hnone => ?_
        obtain rfl := Option.some.inj (hlast.symm.trans hother)
        rw [htoken] at hnone
        cases hnone

/-- The catalog is that of the list. -/
theorem repositoryCatalog_spec :
    (history mayList).wp (client.repositoryCatalog crates).run [] fun t r =>
      ∀ repositories, r = .ok repositories → ∃ items, Listed crates t (.ok (items, false)) ∧
        catalogOf crates client items = .ok repositories := by
  unfold TektonClient.repositoryCatalog
  rw [Monitor.wp_run_bind]
  refine Monitor.wp_mono _ kubeList_spec fun t r ⟨_, hlisted⟩ => ?_
  rcases r with e | ⟨items, truncated⟩
  · exact nofun
  · cases truncated with
    | true => exact nofun
    | false => exact fun repositories h => ⟨items, hlisted, h⟩

/-- **The law of lists.**  `kube_list` sends at most ten requests; what it says of its result is
true exactly when the pages end whole; and then the catalog of repositories, with its check of
ids, is that of all items, after a page without continuation. -/
theorem kube_list_law (crates : Crates) (client : TektonClient) :
    (∀ path selector t kind request next,
      Reaches (client.kubeList crates path selector).run t (.call (.send kind request) next) →
        (requests t).length < maxKubeListPages) ∧
    (∀ path selector t r, Reaches (client.kubeList crates path selector).run t (.done r) →
      (ListLaw crates t r ↔ EndsWhole crates t)) ∧
    (∀ t repositories, Reaches (client.repositoryCatalog crates).run t (.done (.ok repositories)) →
      EndsWhole crates t → catalogOf crates client (allItems crates t) = .ok repositories ∧
        ∃ wrapper, lastPage crates t = some wrapper ∧ NoContinuation wrapper) := by
  refine ⟨fun path selector t kind request next h => ?_, fun path selector t r h => ?_,
    fun t repositories h hends => ?_⟩
  · exact Monitor.history_pending h kubeList_spec rfl
  · exact listLaw_iff (Monitor.history_finished h kubeList_spec).2
  · obtain ⟨items, hlisted, hcatalog⟩ :=
      Monitor.history_finished h repositoryCatalog_spec repositories rfl
    obtain ⟨rfl, -, hlast⟩ := (listLaw_iff hlisted).mpr hends
    exact ⟨hcatalog, hlast⟩

/-- A parser that knows the two pages of the samples. -/
def sampleCrates : Crates where
  parseJson bytes :=
    if bytes = Text.ascii "\x7b\"items\":[]\x7d" then some (.object [("items", .array [])])
    else if bytes = Text.ascii "\x7b\"items\":[],\"metadata\":\x7b\"continue\":5\x7d\x7d" then
      some (.object [("items", .array []), ("metadata", .object [("continue", .nat 5)])])
    else none
  parseUrl _ := none

/-- A client. -/
def sampleClient : TektonClient where
  forgejoOrigin := ⟨"https", "", none, "git.holdenitdown.net", 443, [[]], none, none⟩
  forgejoOriginText := "https://git.holdenitdown.net/"
  kubeOrigin := ⟨"https", "", none, "10.96.0.1", 443, [[]], none, none⟩
  kubeNamespace := "pipelines-as-code"
  redactions := []
  kubeNamespace_eq := rfl
  kubeOrigin_root := rfl

/-- One request for the repositories, answered with a body. -/
def sampleList (body : String) : Trace Ans :=
  [⟨.readToken, some "token"⟩, ⟨.tryAcquire, true⟩,
    ⟨.send .read ⟨.get, sampleClient.kubeUrl sampleClient.repositoriesPath
      (listQuery none 500 none), "token", none⟩, .response 200 (.whole (Text.ascii body))⟩,
    ⟨.release, ()⟩]

/-- An object with a name and a URL. -/
def repositoryObject (name url : String) : Value := .object [
  ("metadata", .object [("name", .string name)]), ("spec", .object [("url", .string url)])]

/-- The text of such an object. -/
def repositoryText (name url : String) : String :=
  "\x7b\"metadata\":\x7b\"name\":\"" ++ name ++ "\"\x7d," ++
    "\"spec\":\x7b\"url\":\"" ++ url ++ "\"\x7d\x7d"

/-- A first page with one repository, which goes on. -/
def firstPage : Text.Bytes := Text.ascii ("\x7b\"items\":[" ++
  repositoryText "site" "https://git.holdenitdown.net/c/d" ++
  "],\"metadata\":\x7b\"continue\":\"more\"\x7d\x7d")

/-- The last page, with a repository of the origin and one of another host. -/
def secondPage : Text.Bytes := Text.ascii ("\x7b\"items\":[" ++
  repositoryText "tools" "https://git.holdenitdown.net/a/b" ++ "," ++
  repositoryText "other" "https://example.org/a/b" ++ "]\x7d")

/-- The items of the two pages. -/
def catalogItems : List Value := [
  repositoryObject "site" "https://git.holdenitdown.net/c/d",
  repositoryObject "tools" "https://git.holdenitdown.net/a/b",
  repositoryObject "other" "https://example.org/a/b"]

/-- A parser that knows the two pages and the URLs in them. -/
def catalogCrates : Crates where
  parseJson bytes :=
    if bytes = firstPage then some (.object [("items", .array (catalogItems.take 1)),
      ("metadata", .object [("continue", .string "more")])])
    else if bytes = secondPage then some (.object [("items", .array (catalogItems.drop 1))])
    else none
  parseUrl text :=
    if text = "https://git.holdenitdown.net/a/b" then
      some ⟨"https", "", none, "git.holdenitdown.net", 443, [['a'], ['b']], none, none⟩
    else if text = "https://git.holdenitdown.net/c/d" then
      some ⟨"https", "", none, "git.holdenitdown.net", 443, [['c'], ['d']], none, none⟩
    else if text = "https://example.org/a/b" then
      some ⟨"https", "", none, "example.org", 443, [['a'], ['b']], none, none⟩
    else none

/-- A server that gives the first page, and the second to who goes on. -/
def respondCatalog : (op : Op) → Ans op
  | .readToken => some "token"
  | .tryAcquire => true
  | .send _ request =>
      .response 200 (.whole (if request.url.query.any fun pairs => pairs.any fun pair =>
        pair.1 == "continue" then secondPage else firstPage))
  | .release => ()

/-- The list of the repositories from that server, as far as so many steps. -/
def catalogList (steps : Nat) : Trace Ans × Program Op Ans (Except Error (List Value × Bool)) :=
  (sampleClient.kubeList catalogCrates sampleClient.repositoriesPath none).run.answered
    respondCatalog steps

/-- The catalog from that server. -/
def catalogRun : Trace Ans × Program Op Ans (Except Error (List Repository)) :=
  (sampleClient.repositoryCatalog catalogCrates).run.answered respondCatalog 8

/-- These two pages end whole. -/
theorem catalog_ends_whole {t : Trace Ans} (hitems : (allItems catalogCrates t).length = 3)
    (hlast : lastPage catalogCrates t = some (.object [("items", .array (catalogItems.drop 1))])) :
    EndsWhole catalogCrates t := by
  intro wrapper hwrapper _ _
  obtain rfl := Option.some.inj (hlast.symm.trans hwrapper)
  exact ⟨by rw [hitems]; decide, .inl rfl⟩

set_option maxRecDepth 8000 in
/-- Two pages are listed whole, and the catalog has the two repositories of the origin. -/
theorem kube_list_law_pages :
    (requests (catalogList 6).1).length < maxKubeListPages ∧
    ListLaw catalogCrates (catalogList 8).1 (.ok (catalogItems, false)) ∧
    catalogOf catalogCrates sampleClient (allItems catalogCrates catalogRun.1) = .ok [
      ⟨"a/b", "tools", "a", "b", "https://git.holdenitdown.net/a/b"⟩,
      ⟨"c/d", "site", "c", "d", "https://git.holdenitdown.net/c/d"⟩] ∧
    ∃ wrapper, lastPage catalogCrates catalogRun.1 = some wrapper ∧ NoContinuation wrapper := by
  obtain ⟨hpages, hlist, hcatalog⟩ := kube_list_law catalogCrates sampleClient
  have hrun : Reaches (sampleClient.kubeList catalogCrates sampleClient.repositoriesPath none).run
      (catalogList 8).1 (.done (.ok (catalogItems, false))) :=
    Program.answered_ended respondCatalog 8 _ rfl
  have hcatalogRun : Reaches (sampleClient.repositoryCatalog catalogCrates).run catalogRun.1
      (.done (.ok [⟨"a/b", "tools", "a", "b", "https://git.holdenitdown.net/a/b"⟩,
        ⟨"c/d", "site", "c", "d", "https://git.holdenitdown.net/c/d"⟩])) :=
    Program.answered_ended respondCatalog 8 _ rfl
  refine ⟨?_, (hlist _ _ _ _ hrun).mpr (catalog_ends_whole rfl rfl),
    hcatalog _ _ hcatalogRun (catalog_ends_whole rfl rfl)⟩
  exact hpages sampleClient.repositoriesPath none _ .read _ _
    (Program.answered_reaches respondCatalog 6 _)

/-- A page whose continuation is a number ends the list, and the result says that it is whole. -/
theorem number_ends_list : ¬ ∀ t r,
    Reaches (sampleClient.kubeList sampleCrates sampleClient.repositoriesPath none).run t (.done r) →
      ListLaw sampleCrates t r := by
  intro h
  obtain ⟨-, -, wrapper, hlast, hno⟩ := h
    (sampleList "\x7b\"items\":[],\"metadata\":\x7b\"continue\":5\x7d\x7d") (.ok ([], false))
    (.step (.step (.step (.step (.refl _)))))
  obtain rfl := Option.some.inj (show some _ = some wrapper from hlast)
  rcases hno with hno | hno <;> cases hno

end Tekton
