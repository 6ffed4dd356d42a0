import HomelabMcp.CephMutations

/-!
# Ceph reads

The reads that put their result together from several answers or lists.

* `osd_detail_law`: the detail of an OSD asks for the pages of the inventory in order, stops at the
  page with the OSD or at a short one, and succeeds only with what it found there.
* `tasks_noninterference`: the list of tasks follows from the names that are allowed and their
  ids, whatever else the documents have.
* `tasks_law`: what the list and the task of a mutation are.
-/

namespace Json

/-- The bits of the double nearest to a number below 2^64, a tie going to the even one. -/
def doubleBits (n : Nat) : Nat :=
  if n = 0 then 0
  else
    let exponent := Nat.log2 n
    let significand :=
      if exponent ≤ 52 then n * 2 ^ (52 - exponent)
      else
        let unit := 2 ^ (exponent - 52)
        let rest := n % unit
        let up := 2 * rest > unit ∨ 2 * rest = unit ∧ n / unit % 2 = 1
        n / unit + if up then 1 else 0
    -- a significand that was rounded up to 2^53 carries into the exponent
    (1023 + exponent) * 2 ^ 52 + (significand - 2 ^ 52)

/-- `Value::as_f64`: the double that is closest to the number. -/
def Value.asF64 : Value → Option UInt64
  | .number (.posInt n) => some (doubleBits n.toNat).toUInt64
  | .number (.negInt n) => some (2 ^ 63 + doubleBits n.toInt.natAbs).toUInt64
  | .number (.float bits) => some bits
  | _ => none

example : doubleBits (2 ^ 53 + 1) = 0x4340000000000000 := by decide +kernel

end Json

namespace Ceph

open Interaction
open Http (Exchange)
open Json (Value)
open Text (Bytes)
open Monitor (history)

/-- The version of the API that pages the inventory. -/
def apiV11 : String := "application/vnd.ceph.api.v1.1+json"
/-- The bounds of the reads. -/
def osdInventoryPageSize : Nat := 100
def osdInventoryMaxPages : Nat := 5
def maxTasksPerState : Nat := 100

/-- A member that is a flag, as a boolean or as an integer. -/
def flag (value : Option Value) : Option Bool :=
  value.bind fun value => value.asBool.or (value.asI64.map fun n => n == 1)

/-- An array of texts, of a bounded length. -/
def boundedStrings (value : Option Value) (maximum bytes : Nat) : Except Error (List String) :=
  match value with
  | none => .ok []
  | some value =>
      match value.asArray with
      | none => .error .invalidResponse
      | some values =>
          if values.length > maximum then .error .invalidResponse
          else values.mapM fun value =>
            okOr .invalidResponse (value.asStr.bind fun s => boundedPlain s bytes)

/-- A flag that may be unknown. -/
def ofFlag : Option Bool → Value
  | some b => .bool b
  | none => .null

/-- A double as a JSON value, which has no infinite ones. -/
def ofF64 : Option UInt64 → Value
  | some bits => if CephClient.isFinite bits then .number (.float bits) else .null
  | none => .null

/-- The id of an entry, under either name. -/
def osdId (value : Value) : Option UInt64 :=
  ((value.get "id").or (value.get "osd")).bind Value.asU64

/-- The part of a detail that has the state of the OSD. -/
def osdMap (detail : Value) : Value := (detail.get "osd_map").getD detail

/-- The detail of an OSD with its item of the inventory. -/
def osdResult (cluster : String) (value inventory : Value) : Except Error Value := do
  let map := osdMap value
  let id ← okOr .invalidResponse (osdId map)
  demand (osdId inventory == some id) .invalidResponse
  let state ← boundedStrings (map.get "state") 16 128
  let deviceClass ← boundedString (inventory.pointer "/tree/device_class") 128
  let defaultDeviceClass ← boundedString (value.pointer "/osd_metadata/default_device_class") 128
  let host ← boundedString (value.pointer "/osd_metadata/hostname") 256
  let operationalStatus ← boundedString (value.get "operational_status") 128
  return .object [
    ("cluster", .string cluster),
    ("default_device_class", .ofOption defaultDeviceClass),
    ("device_class", .ofOption deviceClass),
    ("host", .ofOption host),
    ("in", ofFlag (flag (map.get "in"))),
    ("operational_status", .ofOption operationalStatus),
    ("osd_id", .nat id),
    ("primary_affinity", ofF64 ((map.get "primary_affinity").bind Value.asF64)),
    ("state", .array (state.map .string)),
    ("up", ofFlag (flag (map.get "up"))),
    ("weight", ofF64 ((map.get "weight").bind Value.asF64))]

/-- The allowed tasks of a list. -/
def allowedTasks (values : List Value) : Except Error (List Value) := do
  return (← values.mapM task).filterMap id

/-- The executing and the finished tasks, bounded each. -/
def tasksResult (cluster : String) (value : Value) (limit : UInt16) : Except Error Value := do
  let executing ← okOr .invalidResponse ((value.get "executing_tasks").bind Value.asArray)
  let finished ← okOr .invalidResponse ((value.get "finished_tasks").bind Value.asArray)
  let limit := min limit.toNat maxTasksPerState
  let executing ← allowedTasks executing
  let finished ← allowedTasks finished
  return .object [
    ("cluster", .string cluster),
    ("executing", .array (executing.take limit)),
    ("finished", .array (finished.take limit)),
    ("truncated", .bool (executing.length > limit || finished.length > limit))]

/-- The largest limit of a listing. -/
def maxLimit : Nat := 100

/-- The limit of a listing, fifty where none is given. -/
def boundedLimit (value : Option UInt16) : Option UInt16 :=
  let value := value.getD 50
  if 0 < value.toNat ∧ value.toNat ≤ maxLimit then some value else none

/-- The item of the inventory is that of the OSD. -/
def hasId (osdId : UInt32) (value : Value) : Bool :=
  (value.get "id").bind Value.asU64 == some osdId.toUInt64

namespace CephClient

variable (crates : Crates) (client : CephClient)

/-- The query of one page of the inventory. -/
def inventoryQuery (page : Nat) : List (String × String) :=
  [("offset", toString (page * osdInventoryPageSize)), ("limit", toString osdInventoryPageSize)]

/-- The item of an OSD in the inventory, from `page` on and in `left` pages at most. -/
def findInventory (osdId : UInt32) : Nat → Nat → CephCall (Option Value)
  | 0, _ => pure none
  | left + 1, page => do
      let value ← query crates client .get "api/osd" (inventoryQuery page) none apiV11
      let values ← answer (okOr .invalidResponse value.asArray)
      ensure (decide (values.length ≤ osdInventoryPageSize)) .invalidResponse
      match values.find? (hasId osdId) with
      | some value => return some value
      | none =>
          if values.length < osdInventoryPageSize then return none
          else findInventory osdId left (page + 1)

/-- `osd`: the detail, then the pages of the inventory until the OSD stands on one. -/
def osd (cluster : String) (osdId : UInt32) : CephCall Value := do
  let detail ← query crates client .get (osdPath osdId "") [] none apiV1
  let inventory ← findInventory crates client osdId osdInventoryMaxPages 0
  let inventory ← answer (okOr .invalidResponse inventory)
  answer (osdResult cluster detail inventory)

/-- `tasks`: both lists of the cluster, the entries that are recognised. -/
def tasks (cluster : String) (limit : UInt16) : CephCall Value := do
  let value ← query crates client .get "api/task" [] none apiV1
  answer (tasksResult cluster value limit)

end CephClient

section Inventory

variable {crates : Crates} {client : CephClient} {cluster : String} {osd : UInt32}
  {t : Trace Ans} {bs pages : List Value} {detail : Value}

/-- The bodies of the queries that succeeded. -/
def bodies (crates : Crates) (t : Trace Ans) : List Value :=
  t.filterMap fun
    | ⟨.send .query _, exchange⟩ =>
        (reply crates .query exchange).toOption.map UpstreamResponse.body
    | _ => none

/-- The bodies of both stretches, in order. -/
theorem bodies_append (t u : Trace Ans) :
    bodies crates (t ++ u) = bodies crates t ++ bodies crates u :=
  List.filterMap_append

/-- A page of the inventory with as many items as a page has, none of them that of the OSD. -/
def Passed (osd : UInt32) (page : Value) : Prop :=
  ∃ items, page = .array items ∧ items.length = osdInventoryPageSize ∧
    ∀ item ∈ items, hasId osd item = false

/-- The request for the detail. -/
def detailRequest (osd : UInt32) (token : String) : Request :=
  CephClient.queryRequest .get (CephClient.osdPath osd "") [] none apiV1 token

/-- The request for a page of the inventory. -/
def inventoryRequest (page : Nat) (token : String) : Request :=
  CephClient.queryRequest .get "api/osd" (CephClient.inventoryQuery page) none apiV11 token

/-- What may be requested after the bodies `bs`: the detail, and then a page of the inventory for
each one before it that has passed. -/
def MayRequest (osd : UInt32) (bs : List Value) (request : Request) : Prop :=
  (bs = [] ∧ ∃ token, request = detailRequest osd token) ∨
  ∃ detail pages token, bs = detail :: pages ∧ (∀ page ∈ pages, Passed osd page) ∧
    pages.length < osdInventoryMaxPages ∧ request = inventoryRequest pages.length token

/-- What a call of `osd` may issue: queries in their order, no mutation, no progress. -/
def mayRead (crates : Crates) (osd : UInt32) (t : Trace Ans) : Op → Prop
  | .send operation request => operation = .query ∧ MayRequest osd (bodies crates t) request
  | .progress => False
  | .lock | .store _ | .unlock | .tryAcquire | .release | .authenticate _ => True

/-- Only a query that succeeds adds a body. -/
theorem bodies_preliminary :
    Preliminary (mayRead crates osd) (fun t => bodies crates t = bs) fun _ => False := by
  intro t op ht hop
  cases op with
  | send operation request => cases operation <;> exact hop.elim
  | progress => exact hop.elim
  | _ =>
      refine ⟨trivial, fun answer => ?_⟩
      show bodies crates (t ++ [⟨_, answer⟩]) = bs
      rw [bodies_append, ht]
      exact List.append_nil bs

/-- A request adds its own body to the ones that were read. -/
theorem send_bodies (ht : bodies crates t = bs) {request : Request}
    (hrequest : MayRequest osd bs request) :
    (history (mayRead crates osd)).wp (CephClient.send crates .query request).run t fun t' r =>
      bodies crates t' = bs ++ (r.toOption.map UpstreamResponse.body).toList := by
  have hquiet : Preliminary (mayRead crates osd) (fun t => bodies crates t = bs) fun _ => False :=
    bodies_preliminary
  have hnone : bs = bs ++ [] := (List.append_nil bs).symm
  unfold CephClient.send
  rw [Monitor.wp_run_bind]
  refine Monitor.wp_run_ensure _ (fun _ => ?_) fun _ => ht.trans hnone
  refine hquiet.call ht (by trivial) fun granted ht => ?_
  cases granted with
  | false => exact Eq.trans ht hnone
  | true =>
      refine ⟨⟨rfl, by rwa [ht]⟩, fun exchange => ⟨trivial, fun _ => ?_⟩⟩
      show bodies crates (t ++ [_] ++ [⟨_, exchange⟩] ++ [_]) =
        bs ++ ((reply crates .query exchange).toOption.map UpstreamResponse.body).toList
      rw [bodies_append, bodies_append, ht]
      cases h : reply crates .query exchange with
      | error e => simp [bodies, h, Except.toOption]
      | ok response => simp [bodies, h, Except.toOption]

/-- So does the second one. -/
theorem resend_bodies (ht : bodies crates t = bs) {request : String → Request}
    (hrequest : ∀ token, MayRequest osd bs (request token)) (rejected : String) :
    (history (mayRead crates osd)).wp (client.resend crates request rejected).run t fun t' r =>
      bodies crates t' = bs ++ r.toOption.toList := by
  have hquiet : Preliminary (mayRead crates osd) (fun t => bodies crates t = bs) fun _ => False :=
    bodies_preliminary
  have hnone : bs = bs ++ [] := (List.append_nil bs).symm
  unfold CephClient.resend
  rw [Monitor.wp_run_bind]
  refine Monitor.wp_mono _ (hquiet.invalidate ht rejected) fun t₁ r₁ ht₁ => ?_
  rcases r₁ with e | ⟨⟩
  · exact ht₁.trans hnone
  simp only [Monitor.wp_run_bind]
  refine Monitor.wp_mono _ (hquiet.authenticate ht₁) fun t₂ r₂ ht₂ => ?_
  rcases r₂ with e | token
  · exact ht₂.trans hnone
  refine Monitor.wp_mono _ (send_bodies ht₂ (hrequest token)) fun t₃ r₃ ht₃ => ?_
  rcases r₃ with e | response
  · exact ht₃
  · exact ht₃

/-- And so does a query, with its login and its second request. -/
theorem query_bodies (ht : bodies crates t = bs) {method : Method} {path accept : String}
    {parameters : List (String × String)} {body : Option Value}
    (hrequest : ∀ token, MayRequest osd bs
      (CephClient.queryRequest method path parameters body accept token)) :
    (history (mayRead crates osd)).wp
      (client.query crates method path parameters body accept).run t fun t' r =>
        bodies crates t' = bs ++ r.toOption.toList := by
  have hquiet : Preliminary (mayRead crates osd) (fun t => bodies crates t = bs) fun _ => False :=
    bodies_preliminary
  have hnone : bs = bs ++ [] := (List.append_nil bs).symm
  unfold CephClient.query
  rw [Monitor.wp_run_bind]
  refine Monitor.wp_mono _ (hquiet.authenticate ht) fun t₁ r₁ ht₁ => ?_
  rcases r₁ with e | token
  · exact ht₁.trans hnone
  show (history _).wp (attempt _ >>= _).run _ _
  rw [Monitor.wp_run_bind, Monitor.wp_run_attempt]
  refine Monitor.wp_mono _ (send_bodies ht₁ (hrequest token)) fun t₂ r₂ ht₂ => ?_
  rcases r₂ with e | response
  · have hsame : bodies crates t₂ = bs := Eq.trans ht₂ hnone.symm
    cases e with
    | unauthorized => exact resend_bodies hsame hrequest token
    | _ => exact hsame.trans hnone
  · exact ht₂

/-- What is found: an item of the page after those that have passed. -/
def Found (osd : UInt32) (detail item : Value) (bs : List Value) : Prop :=
  ∃ pages items, bs = detail :: pages ++ [.array items] ∧ (∀ page ∈ pages, Passed osd page) ∧
    pages.length < osdInventoryMaxPages ∧ items.length ≤ osdInventoryPageSize ∧
    items.find? (hasId osd) = some item

/-- **The search of the inventory**, from the pages that have passed. -/
theorem findInventory_spec (left : Nat) (ht : bodies crates t = detail :: pages)
    (hpassed : ∀ page ∈ pages, Passed osd page)
    (hleft : pages.length + left = osdInventoryMaxPages) :
    (history (mayRead crates osd)).wp
      (client.findInventory crates osd left pages.length).run t fun t' r =>
        ∀ item, r = .ok (some item) → Found osd detail item (bodies crates t') := by
  induction left generalizing t pages with
  | zero => exact fun item h => nomatch h
  | succ left ih =>
      have hlimit : pages.length < osdInventoryMaxPages := by omega
      unfold CephClient.findInventory
      rw [Monitor.wp_run_bind]
      refine Monitor.wp_mono _ (query_bodies ht fun token =>
        .inr ⟨detail, pages, token, rfl, hpassed, hlimit, rfl⟩) fun t₁ r₁ ht => ?_
      rcases r₁ with e | value
      · exact fun item h => nomatch h
      have ht : bodies crates t₁ = detail :: (pages ++ [value]) := ht
      show (history _).wp (answer (okOr _ value.asArray) >>= _).run _ _
      rw [Monitor.wp_run_bind, Monitor.wp_run_answer]
      cases harray : value.asArray with
      | none => exact fun item h => nomatch h
      | some items =>
          have hvalue : value = .array items := Value.asArray_eq_some.mp harray
          show (history _).wp (ensure _ _ >>= _).run _ _
          rw [Monitor.wp_run_bind]
          refine Monitor.wp_run_ensure _ (fun hsize => ?_) fun _ item h => nomatch h
          have hsize : items.length ≤ osdInventoryPageSize := of_decide_eq_true hsize
          show (history _).wp (ExceptT.run (match items.find? (hasId osd) with
            | some value => _
            | none => _)) _ _
          cases hfind : items.find? (hasId osd) with
          | some found =>
              intro item h
              obtain rfl : found = item := Option.some.inj (Except.ok.inj h)
              exact ⟨pages, items, by rw [ht, hvalue]; rfl, hpassed, hlimit, hsize, hfind⟩
          | none =>
              by_cases hshort : items.length < osdInventoryPageSize
              · simp only [if_pos hshort]
                exact fun item h => nomatch h
              · simp only [if_neg hshort]
                have hfull : Passed osd value :=
                  ⟨items, hvalue, by omega, by simpa using hfind⟩
                have hpages : ∀ page ∈ pages ++ [value], Passed osd page := by
                  intro page hpage
                  rcases List.mem_append.mp hpage with hpage | hpage
                  · exact hpassed page hpage
                  · rw [List.mem_singleton.mp hpage]
                    exact hfull
                have hlength : (pages ++ [value]).length = pages.length + 1 := by simp
                have hrest := ih ht hpages (by omega)
                rwa [hlength] at hrest

/-- The entries of a page. -/
def itemsOf (page : Value) : List Value := page.asArray.getD []

/-- A page is its entries. -/
@[simp] theorem itemsOf_array (items : List Value) : itemsOf (.array items) = items := rfl

/-- The items that were inspected: those of the pages after the detail. -/
def inspected (bs : List Value) : List Value := bs.tail.flatMap itemsOf

/-- Pages that have passed have 100 items each and not that of the OSD. -/
theorem passed_items (hpassed : ∀ page ∈ pages, Passed osd page) :
    (pages.flatMap itemsOf).find? (hasId osd) = none ∧
      (pages.flatMap itemsOf).length = osdInventoryPageSize * pages.length := by
  induction pages with
  | nil => exact ⟨rfl, rfl⟩
  | cons page pages ih =>
      obtain ⟨⟨items, rfl, hlength, hnone⟩, hrest⟩ := List.forall_mem_cons.mp hpassed
      obtain ⟨hfind, hsum⟩ := ih hrest
      have hpage : items.find? (hasId osd) = none := by simpa using hnone
      rw [List.flatMap_cons, itemsOf_array, List.find?_append, hpage, hfind, List.length_append,
        hlength, hsum, List.length_cons, Nat.mul_succ, Nat.add_comm]
      exact ⟨rfl, rfl⟩

/-- What was found is the first item with the id among those inspected. -/
theorem Found.first {item : Value} (h : Found osd detail item bs) :
    (inspected bs).find? (hasId osd) = some item ∧ (inspected bs).length ≤ 500 := by
  obtain ⟨pages, items, rfl, hpassed, hcount, hsize, hfind⟩ := h
  obtain ⟨hnone, hlength⟩ := passed_items hpassed
  have hinspected : inspected (detail :: pages ++ [.array items]) =
      pages.flatMap itemsOf ++ items := by
    simp [inspected]
  rw [hinspected, List.find?_append, hnone, List.length_append, hlength]
  refine ⟨hfind, ?_⟩
  simp only [osdInventoryMaxPages, osdInventoryPageSize] at hcount hsize ⊢
  omega

/-- What a result says of the OSD, and from which bodies it comes: its class is that of the first
item with the id. -/
def Detailed (osd : UInt32) (bs : List Value) (result : Value) : Prop :=
  ∃ detail item, Found osd detail item bs ∧ osdId (osdMap detail) = some osd.toUInt64 ∧
    (inspected bs).find? (hasId osd) = some item ∧ (inspected bs).length ≤ 500 ∧
    result.get "osd_id" = some (.nat osd.toUInt64) ∧
    ∃ deviceClass, boundedString (item.pointer "/tree/device_class") 128 = .ok deviceClass ∧
      result.get "device_class" = some (.ofOption deviceClass)

/-- An entry that is found has the id that was looked for. -/
theorem osdId_of_hasId {item : Value} (h : hasId osd item = true) :
    osdId item = some osd.toUInt64 := by
  have hid : (item.get "id").bind Value.asU64 = some osd.toUInt64 := by simpa [hasId] using h
  obtain ⟨value, hvalue, hnumber⟩ := Option.bind_eq_some_iff.mp hid
  rw [osdId, hvalue]
  exact hnumber

/-- The result is made of the detail and of the entry that was found. -/
theorem detailed_of_result {item result : Value} (hfound : Found osd detail item bs)
    (h : osdResult cluster detail item = .ok result) : Detailed osd bs result := by
  obtain ⟨hfirst, hlength⟩ := hfound.first
  have hitem : osdId item = some osd.toUInt64 := osdId_of_hasId (List.find?_some hfirst)
  obtain ⟨id, hid, h⟩ := bind_eq_ok.mp h
  have hid : osdId (osdMap detail) = some id := okOr_eq_ok.mp hid
  obtain ⟨⟨⟩, hsame, h⟩ := bind_eq_ok.mp h
  obtain ⟨state, -, h⟩ := bind_eq_ok.mp h
  obtain ⟨deviceClass, hclass, h⟩ := bind_eq_ok.mp h
  obtain ⟨defaultDeviceClass, -, h⟩ := bind_eq_ok.mp h
  obtain ⟨host, -, h⟩ := bind_eq_ok.mp h
  obtain ⟨operationalStatus, -, h⟩ := bind_eq_ok.mp h
  obtain rfl := Except.ok.inj h
  have hsame : osdId item = some id := by simpa using demand_eq_ok.mp hsame
  obtain rfl : osd.toUInt64 = id := Option.some.inj (hitem.symm.trans hsame)
  exact ⟨detail, item, hfound, hid, hfirst, hlength, rfl, deviceClass, hclass, rfl⟩

/-- A call of `osd` asks in order, and what it returns is of the pages it read. -/
theorem osd_spec (crates : Crates) (client : CephClient) (cluster : String) (osd : UInt32) :
    (history (mayRead crates osd)).wp (client.osd crates cluster osd).run [] fun t r =>
      ∀ result, r = .ok result → Detailed osd (bodies crates t) result := by
  have hbodies : bodies crates [] = [] := rfl
  unfold CephClient.osd
  rw [Monitor.wp_run_bind]
  have hdetail : ∀ token, MayRequest osd [] (detailRequest osd token) :=
    fun token => .inl ⟨rfl, token, rfl⟩
  refine Monitor.wp_mono _ (query_bodies hbodies hdetail) fun t₁ r₁ ht₁ => ?_
  rcases r₁ with e | detail
  · exact fun result h => nomatch h
  show (history _).wp (client.findInventory crates osd osdInventoryMaxPages 0 >>= _).run _ _
  rw [Monitor.wp_run_bind]
  have hsearch := @findInventory_spec crates client osd t₁ [] detail osdInventoryMaxPages ht₁
    (List.forall_mem_nil _) rfl
  refine Monitor.wp_mono _ hsearch fun t₂ r₂ hfound => ?_
  rcases r₂ with e | found
  · exact fun result h => nomatch h
  cases found with
  | none => exact fun result h => nomatch h
  | some item => exact fun result h => detailed_of_result (hfound item rfl) h

/-- **The detail of an OSD.**  Whatever is answered, it requests the detail and then the pages of
the inventory in order, one more only after full pages without the OSD; and it succeeds only if the
detail has the id and a page has an item with it, whose class it reports. -/
theorem osd_detail_law (crates : Crates) (client : CephClient) (cluster : String) (osd : UInt32)
    (t : Trace Ans) :
    (∀ operation request next,
      Reaches (client.osd crates cluster osd).run t (.call (.send operation request) next) →
        operation = .query ∧ MayRequest osd (bodies crates t) request) ∧
    ∀ r, Reaches (client.osd crates cluster osd).run t (.done r) →
      (∃ e, r = .error e) ∨ ∃ result, r = .ok result ∧ Detailed osd (bodies crates t) result := by
  have hspec := osd_spec crates client cluster osd
  constructor
  · intro operation request next hreaches
    exact Monitor.history_pending hreaches hspec
  · intro r hreaches
    cases r with
    | error e => exact .inl ⟨e, rfl⟩
    | ok result => exact .inr ⟨result, rfl, Monitor.history_finished hreaches hspec result rfl⟩

/-- The detail of OSD 3, which is its item of the inventory too. -/
def nvmeValue : Value := .object [("id", .nat 3),
  ("tree", .object [("device_class", .string "nvme")])]

/-- A detail with its device class. -/
def nvmeText : String := "\x7b\"id\":3,\"tree\":\x7b\"device_class\":\"nvme\"\x7d\x7d"

/-- A page that is full of other OSDs. -/
def fullPage : Bytes :=
  Text.ascii "[" ++ ((List.range 99).flatMap fun _ => Text.ascii "\x7b\"id\":7\x7d,") ++
    Text.ascii "\x7b\"id\":7\x7d]"

/-- The parser knows the detail and the two pages. -/
def readCrates : Crates where
  parseJson bytes :=
    if bytes = Text.ascii nvmeText then some nvmeValue
    else if bytes = Text.ascii ("[" ++ nvmeText ++ "]") then some (.array [nvmeValue])
    else if bytes = fullPage then some (.array (List.replicate 100 (.object [("id", .nat 7)])))
    else none
  joins _ := true

/-- A Dashboard with OSD 3 on its second page. -/
def readAnswers : (op : Op) → Ans op
  | .lock => some "token"
  | .tryAcquire => true
  | .authenticate _ => .failed
  | .send _ request => .response 200 (.whole (
      if request.path ≠ "api/osd" then Text.ascii nvmeText
      else if request.query = CephClient.inventoryQuery 0 then fullPage
      else Text.ascii ("[" ++ nvmeText ++ "]")))
  | .store _ | .unlock | .release | .progress => ()

/-- The detail of OSD 3, as far as so many steps. -/
def readDetail (steps : Nat) : Trace Ans × Program Op Ans (Except Error Value) :=
  (CephClient.osd readCrates ⟨"admin", "secret"⟩ "main" 3).run.answered readAnswers steps

/-- The query of the request that a call is about to send. -/
def pendingQuery : Program Op Ans (Except Error Value) → Option (List (String × String))
  | .call (.send _ request) _ => some request.query
  | _ => none

/-- A pending query is the one of the request that stands first. -/
theorem pendingQuery_eq {q : Program Op Ans (Except Error Value)} {pairs : List (String × String)}
    (h : pendingQuery q = some pairs) :
    ∃ operation request next, q = .call (.send operation request) next ∧ request.query = pairs := by
  unfold pendingQuery at h
  split at h
  · next operation request next => exact ⟨operation, request, next, rfl, Option.some.inj h⟩
  · cases h

/-- The OSD is found on the second page, which is asked for after the first. -/
theorem osd_detail_law_pages :
    (∃ operation request next, (readDetail 13).2 = .call (.send operation request) next ∧
      request.query = [("offset", "100"), ("limit", "100")] ∧ operation = .query ∧
      MayRequest 3 (bodies readCrates (readDetail 13).1) request) ∧
    ∃ result, Detailed 3 (bodies readCrates (readDetail 20).1) result ∧
      (result.get "device_class").bind Value.asStr = some "nvme" := by
  have hlaw := osd_detail_law readCrates ⟨"admin", "secret"⟩ "main" 3
  constructor
  · obtain ⟨operation, request, next, hpending, hquery⟩ :=
      @pendingQuery_eq (readDetail 13).2 [("offset", "100"), ("limit", "100")] (by decide +kernel)
    have hreaches := Program.answered_reaches readAnswers 13
      (CephClient.osd readCrates ⟨"admin", "secret"⟩ "main" 3).run
    have hallowed := (hlaw _).1 operation request next (hpending ▸ hreaches)
    exact ⟨operation, request, next, hpending, hquery, hallowed⟩
  · have hclass : ((readDetail 20).2.ended.bind Except.toOption).bind (fun result =>
        (result.get "device_class").bind Value.asStr) = some "nvme" := by decide +kernel
    obtain ⟨value, hvalue, hnvme⟩ := Option.bind_eq_some_iff.mp hclass
    obtain ⟨outcome, hended, houtcome⟩ := Option.bind_eq_some_iff.mp hvalue
    rcases (hlaw _).2 _ (Program.answered_ended readAnswers 20 _ hended) with
      ⟨e, rfl⟩ | ⟨result, rfl, hdetailed⟩
    · cases houtcome
    · obtain rfl := Option.some.inj houtcome
      exact ⟨result, hdetailed, hnvme⟩

end Inventory

section Tasks

variable {cluster : String} {limit : UInt16} {left right value result : Value}

/-- An entry with the name that is allowed. -/
def Allowed (entry : Value) : Prop := (entry.get "name").bind Value.asStr = some "osd/delete"

/-- Whether an entry is one of the recognised ones is decided by its name. -/
instance (entry : Value) : Decidable (Allowed entry) :=
  inferInstanceAs (Decidable ((entry.get "name").bind Value.asStr = some "osd/delete"))

/-- The value at `metadata.svc_id`. -/
def svcId (entry : Value) : Option Value :=
  ((entry.get "metadata").bind Value.asObject).bind fun metadata => metadata.lookup "svc_id"

/-- Two entries agree on whether they are allowed and then on the id. -/
def EntriesAgree (left right : Value) : Prop :=
  (Allowed left ↔ Allowed right) ∧ (Allowed left → svcId left = svcId right)

/-- The entries of one state. -/
def taskEntries (value : Value) (key : String) : Option (List Value) :=
  (value.get key).bind Value.asArray

/-- Two documents agree, entry by entry, in both states. -/
def DocumentsAgree (left right : Value) : Prop :=
  ∀ key ∈ ["executing_tasks", "finished_tasks"],
    Option.Rel (List.Forall₂ EntriesAgree) (taskEntries left key) (taskEntries right key)

/-- A recognised entry is a removal, or malformed. -/
theorem task_allowed {entry : Value} (h : Allowed entry) : task entry =
    (okOr .invalidResponse ((svcId entry).bind numericOsdId)).map (some ∘ deleteTask) := by
  unfold task svcId
  rw [h]
  cases (entry.get "metadata").bind Value.asObject with
  | none => rfl
  | some metadata =>
      simp only [Option.bind_some]
      cases (metadata.lookup "svc_id").bind numericOsdId <;> rfl

/-- The others are left out. -/
theorem task_other {entry : Value} (h : ¬ Allowed entry) : task entry = .ok none := by
  unfold task
  split
  · rfl
  · next hname => exact absurd hname h
  · rfl

/-- Nothing but the name and the id of an entry counts. -/
theorem task_congr (h : EntriesAgree left right) : task left = task right := by
  by_cases hallowed : Allowed left
  · rw [task_allowed hallowed, task_allowed (h.1.mp hallowed), h.2 hallowed]
  · rw [task_other hallowed, task_other (mt h.1.mpr hallowed)]

/-- The same of a list of entries. -/
theorem allowedTasks_congr {lefts rights : List Value}
    (h : List.Forall₂ EntriesAgree lefts rights) :
    allowedTasks lefts = allowedTasks rights := by
  have hmap : lefts.mapM task = rights.mapM task := by
    induction h with
    | nil => rfl
    | cons hentry _ ih => rw [List.mapM_cons, List.mapM_cons, task_congr hentry, ih]
  rw [allowedTasks, allowedTasks, hmap]

/-- **The list of tasks depends on what is allowed only.** -/
theorem tasks_noninterference (h : DocumentsAgree left right) :
    tasksResult cluster left limit = tasksResult cluster right limit := by
  have hexecuting := h "executing_tasks" (by simp)
  have hfinished := h "finished_tasks" (by simp)
  unfold tasksResult
  change (okOr _ (taskEntries left _) >>= _) = (okOr _ (taskEntries right _) >>= _)
  generalize taskEntries left "executing_tasks" = executing at hexecuting ⊢
  generalize taskEntries right "executing_tasks" = executing' at hexecuting ⊢
  cases hexecuting with
  | none => rfl
  | some hexecuting =>
      change (okOr _ (taskEntries left _) >>= _) = (okOr _ (taskEntries right _) >>= _)
      generalize taskEntries left "finished_tasks" = finished at hfinished ⊢
      generalize taskEntries right "finished_tasks" = finished' at hfinished ⊢
      cases hfinished with
      | none => rfl
      | some hfinished =>
          change (allowedTasks _ >>= fun executing => allowedTasks _ >>= _) =
            (allowedTasks _ >>= fun executing => allowedTasks _ >>= _)
          rw [allowedTasks_congr hexecuting, allowedTasks_congr hfinished]

/-- The ids of the allowed entries. -/
def allowedIds (entries : List Value) : List (Option UInt32) :=
  (entries.filter fun entry => decide (Allowed entry)).map fun entry =>
    (svcId entry).bind numericOsdId

/-- The first entry, then the others. -/
theorem allowedTasks_cons (entry : Value) (entries : List Value) :
    allowedTasks (entry :: entries) =
      task entry >>= fun found => (allowedTasks entries).map (found.toList ++ ·) := by
  unfold allowedTasks
  rw [List.mapM_cons]
  cases task entry with
  | error e => rfl
  | ok found => cases entries.mapM task <;> cases found <;> rfl

/-- The allowed tasks are those with the ids of the allowed entries, and each must have one. -/
theorem allowedTasks_eq_ok {entries tasks : List Value} :
    allowedTasks entries = .ok tasks ↔
      ∃ ids : List UInt32, allowedIds entries = ids.map some ∧ tasks = ids.map deleteTask := by
  induction entries generalizing tasks with
  | nil =>
      constructor
      · intro h
        obtain rfl := Except.ok.inj h
        exact ⟨[], rfl, rfl⟩
      · rintro ⟨ids, hids, rfl⟩
        obtain rfl : ids = [] := by simpa [allowedIds] using hids.symm
        rfl
  | cons entry entries ih =>
      rw [allowedTasks_cons]
      by_cases hallowed : Allowed entry
      · have hids : allowedIds (entry :: entries) =
            (svcId entry).bind numericOsdId :: allowedIds entries := by
          simp [allowedIds, hallowed]
        rw [task_allowed hallowed, hids]
        cases (svcId entry).bind numericOsdId with
        | none =>
            refine ⟨nofun, fun ⟨ids, hnone, _⟩ => ?_⟩
            cases ids <;> simp at hnone
        | some id =>
            change (allowedTasks entries).map (deleteTask id :: ·) = .ok tasks ↔ _
            constructor
            · intro h
              cases hrest : allowedTasks entries with
              | error e => simp [hrest, Except.map] at h
              | ok rest =>
                  obtain ⟨ids, hrestIds, rfl⟩ := ih.mp hrest
                  rw [hrest] at h
                  exact ⟨id :: ids, by simp [hrestIds], (Except.ok.inj h).symm⟩
            · rintro ⟨ids, hsome, rfl⟩
              cases ids with
              | nil => simp at hsome
              | cons id' ids =>
                  obtain ⟨hid, hrest⟩ := List.cons.inj hsome
                  obtain rfl : id = id' := Option.some.inj hid
                  rw [ih.mpr ⟨ids, hrest, rfl⟩]
                  rfl
      · have hids : allowedIds (entry :: entries) = allowedIds entries := by
          simp [allowedIds, hallowed]
        have hmap : (task entry >>= fun found => (allowedTasks entries).map (found.toList ++ ·)) =
            allowedTasks entries := by
          rw [task_other hallowed]
          cases allowedTasks entries <;> rfl
        rw [hmap, hids, ih]

/-- There is one id for each recognised entry. -/
theorem length_allowedIds {entries : List Value} {ids : List UInt32}
    (h : allowedIds entries = ids.map some) :
    (entries.filter fun entry => decide (Allowed entry)).length = ids.length := by
  have hlength := congrArg List.length h
  simpa [allowedIds] using hlength

/-- What is listed of the entries of one state: the first tasks with the ids of its allowed
entries. -/
def Listed (limit : Nat) (entries : List Value) (listed : Option Value) : Prop :=
  ∃ ids : List UInt32, allowedIds entries = ids.map some ∧
    listed = some (.array ((ids.take limit).map deleteTask))

/-- More entries are allowed than are listed. -/
def Exceeds (limit : Nat) (entries : List Value) : Prop :=
  (entries.filter fun entry => decide (Allowed entry)).length > limit

/-- A result lists the first of the recognised entries of both lists. -/
theorem tasksResult_eq_ok (h : tasksResult cluster value limit = .ok result) :
    ∃ executing finished, taskEntries value "executing_tasks" = some executing ∧
      taskEntries value "finished_tasks" = some finished ∧
      Listed (min limit.toNat maxTasksPerState) executing (result.get "executing") ∧
      Listed (min limit.toNat maxTasksPerState) finished (result.get "finished") ∧
      (result.get "truncated" = some (.bool true) ↔
        Exceeds (min limit.toNat maxTasksPerState) executing ∨
          Exceeds (min limit.toNat maxTasksPerState) finished) := by
  obtain ⟨executing, hexecuting, h⟩ := bind_eq_ok.mp h
  obtain ⟨finished, hfinished, h⟩ := bind_eq_ok.mp h
  obtain ⟨executingTasks, hexecutingTasks, h⟩ := bind_eq_ok.mp h
  obtain ⟨finishedTasks, hfinishedTasks, h⟩ := bind_eq_ok.mp h
  obtain ⟨executingIds, hexecutingIds, rfl⟩ := allowedTasks_eq_ok.mp hexecutingTasks
  obtain ⟨finishedIds, hfinishedIds, rfl⟩ := allowedTasks_eq_ok.mp hfinishedTasks
  obtain rfl := Except.ok.inj h
  refine ⟨executing, finished, okOr_eq_ok.mp hexecuting, okOr_eq_ok.mp hfinished,
    ⟨executingIds, hexecutingIds, ?_⟩, ⟨finishedIds, hfinishedIds, ?_⟩, ?_⟩
  · rw [List.map_take]
    rfl
  · rw [List.map_take]
    rfl
  · rw [Exceeds, Exceeds, length_allowedIds hexecutingIds, length_allowedIds hfinishedIds]
    simp [Value.get, List.lookup]

/-- An allowed entry with a malformed id, wherever it is, fails the whole list. -/
theorem tasksResult_malformed {key : String} {entries : List Value} {entry : Value}
    (hkey : key ∈ ["executing_tasks", "finished_tasks"])
    (hentries : taskEntries value key = some entries) (hentry : entry ∈ entries)
    (hallowed : Allowed entry) (hid : (svcId entry).bind numericOsdId = none) :
    ∃ e, tasksResult cluster value limit = .error e := by
  have hbad : ∀ ids : List UInt32, allowedIds entries ≠ ids.map some := by
    intro ids hids
    have hnone : none ∈ allowedIds entries :=
      List.mem_map.mpr ⟨entry, List.mem_filter.mpr ⟨hentry, by simpa using hallowed⟩, hid⟩
    simp [hids] at hnone
  cases h : tasksResult cluster value limit with
  | ok result =>
      obtain ⟨executing, finished, hexecuting, hfinished, ⟨executingIds, hexecutingIds, -⟩,
        ⟨finishedIds, hfinishedIds, -⟩, -⟩ := tasksResult_eq_ok h
      rcases List.mem_pair.mp hkey with rfl | rfl
      · obtain rfl := Option.some.inj (hentries.symm.trans hexecuting)
        exact absurd hexecutingIds (hbad _)
      · obtain rfl := Option.some.inj (hentries.symm.trans hfinished)
        exact absurd hfinishedIds (hbad _)
  | error e => exact ⟨e, rfl⟩

/-- The task that confirms a mutation is that of the OSD. -/
theorem mutationTask_ok {action : String} {expected : Option UInt32}
    (h : mutationTask value action expected = .ok result) :
    (action = "osd.destroy" ∨ action = "osd.purge") ∧ ∃ id, expected = some id ∧ Allowed value ∧
      (svcId value).bind numericOsdId = some id ∧ result = deleteTask id := by
  have hname : action = "osd.destroy" ∨ action = "osd.purge" := by
    by_contra hother
    rw [mutationTask, if_pos (by tauto)] at h
    cases h
  have hallowed : Allowed value := by
    by_contra hother
    rw [mutationTask, if_neg (by tauto), task_other hother] at h
    cases h
  rw [mutationTask, if_neg (by tauto), task_allowed hallowed] at h
  cases hid : (svcId value).bind numericOsdId with
  | none =>
      rw [hid] at h
      cases h
  | some id =>
      rw [hid] at h
      simp only [okOr, Except.map, Function.comp] at h
      have hexpected : expected.map UInt32.toUInt64 = some id.toUInt64 := by
        by_contra hother
        rw [if_pos (.inr fun hsame => hother (hsame.symm.trans (deleteTask_svcId id)))] at h
        cases h
      have hfits := not_or.mpr ⟨not_not.mpr (deleteTask_name id),
        not_not.mpr ((deleteTask_svcId id).trans hexpected.symm)⟩
      rw [if_neg hfits] at h
      obtain ⟨expectedId, rfl, hsame⟩ := Option.map_eq_some_iff.mp hexpected
      obtain rfl : expectedId = id :=
        UInt32.toNat_inj.mp (by simpa using congrArg UInt64.toNat hsame)
      exact ⟨hname, expectedId, rfl, hallowed, rfl, (Except.ok.inj h).symm⟩

/-- A limit that an action accepts bounds its list. -/
theorem boundedLimit_eq_some {limit : UInt16} {value : Option UInt16}
    (h : boundedLimit value = some limit) : min limit.toNat maxTasksPerState = limit.toNat := by
  simp only [boundedLimit] at h
  split_ifs at h with hbounds
  obtain rfl := Option.some.inj h
  exact Nat.min_eq_left hbounds.2

/-- **Tasks.**  The list of tasks depends only on which entries are allowed and on their ids; it
has nothing but those ids, up to the limit, and says if there are more; a malformed id fails it; and
a mutation is confirmed by the task of its OSD only. -/
theorem tasks_law (cluster : String) :
    (∀ left right limit, DocumentsAgree left right →
      tasksResult cluster left limit = tasksResult cluster right limit) ∧
    (∀ value limit result, tasksResult cluster value limit = .ok result →
      ∃ executing finished, taskEntries value "executing_tasks" = some executing ∧
        taskEntries value "finished_tasks" = some finished ∧
        Listed (min limit.toNat maxTasksPerState) executing (result.get "executing") ∧
        Listed (min limit.toNat maxTasksPerState) finished (result.get "finished") ∧
        (result.get "truncated" = some (.bool true) ↔
          Exceeds (min limit.toNat maxTasksPerState) executing ∨
            Exceeds (min limit.toNat maxTasksPerState) finished)) ∧
    (∀ requested limit, boundedLimit requested = some limit →
      min limit.toNat maxTasksPerState = limit.toNat) ∧
    (∀ value limit key entries entry, key ∈ ["executing_tasks", "finished_tasks"] →
      taskEntries value key = some entries → entry ∈ entries → Allowed entry →
      (svcId entry).bind numericOsdId = none → ∃ e, tasksResult cluster value limit = .error e) ∧
    ∀ value action expected result, mutationTask value action expected = .ok result →
      (action = "osd.destroy" ∨ action = "osd.purge") ∧ ∃ id, expected = some id ∧ Allowed value ∧
        (svcId value).bind numericOsdId = some id ∧ result = deleteTask id :=
  ⟨fun _ _ _ h => tasks_noninterference h, fun _ _ _ h => tasksResult_eq_ok h,
    fun _ _ h => boundedLimit_eq_some h,
    fun _ _ _ _ _ hkey hentries hentry hallowed hid =>
      tasksResult_malformed hkey hentries hentry hallowed hid,
    fun _ _ _ _ h => mutationTask_ok h⟩

/-- Two entries with the same id and other contents. -/
def sampleEntries : List Value :=
  [.object [("metadata", .object [("svc_id", .string "7")]), ("name", .string "osd/delete")],
    .object [("metadata", .object [("note", .string "secret"), ("svc_id", .string "7")]),
      ("name", .string "osd/delete"), ("progress", .nat 50)]]

/-- A document with one running task. -/
def sampleDocument (entry : Value) : Value :=
  .object [("executing_tasks", .array [entry]), ("finished_tasks", .array [])]

theorem tasks_law_one :
    tasksResult "main" (sampleDocument sampleEntries[0]) 10 =
        tasksResult "main" (sampleDocument sampleEntries[1]) 10 ∧
      min (50 : UInt16).toNat maxTasksPerState = (50 : UInt16).toNat ∧
      (∃ e, tasksResult "main" (sampleDocument (.object [("name", .string "osd/delete")])) 10 =
        .error e) ∧
      ∃ id, some (7 : UInt32) = some id ∧ deleteTask 7 = deleteTask id := by
  obtain ⟨hsame, -, hlimit, hmalformed, hmutation⟩ := tasks_law "main"
  refine ⟨hsame _ _ 10 fun key hkey => ?_, hlimit none 50 rfl,
    hmalformed _ 10 "executing_tasks" [.object [("name", .string "osd/delete")]] _ (by simp) rfl
      List.mem_cons_self rfl rfl, ?_⟩
  · rcases List.mem_pair.mp hkey with rfl | rfl
    · exact .some (.cons ⟨by decide, fun _ => rfl⟩ .nil)
    · exact .some .nil
  · obtain ⟨-, id, hexpected, -, -, hresult⟩ :=
      hmutation sampleEntries[0] "osd.purge" (some 7) (deleteTask 7) rfl
    exact ⟨id, hexpected, hresult⟩

/-- The tasks that a call lists are those of a document that the Dashboard has answered. -/
theorem tasks_answered {crates : Crates} {client : CephClient} {t : Trace Ans}
    (h : Reaches (client.tasks crates cluster limit).run t (.done (.ok result))) :
    ∃ status value, Answered crates
      (CephClient.queryRequest .get "api/task" [] none apiV1) t ⟨status, value⟩ ∧
      tasksResult cluster value limit = .ok result := by
  have hany : Preliminary (fun _ _ => True) (fun _ => True) fun _ => True :=
    fun _ _ _ _ => ⟨trivial, fun _ => trivial⟩
  have hspec : (history fun _ _ => True).wp (client.tasks crates cluster limit).run [] fun t r =>
      ∀ result, r = .ok result → ∃ status value, Answered crates
        (CephClient.queryRequest .get "api/task" [] none apiV1) t ⟨status, value⟩ ∧
        tasksResult cluster value limit = .ok result := by
    unfold CephClient.tasks
    rw [Monitor.wp_run_bind]
    refine Monitor.wp_mono _ (hany.query trivial fun _ => trivial) fun t₁ r₁ ⟨_, hanswered⟩ => ?_
    rcases r₁ with e | value
    · exact fun result h => nomatch h
    · obtain ⟨status, hstatus⟩ := hanswered value rfl
      exact fun result h => ⟨status, value, hstatus, h⟩
  exact Monitor.history_finished h hspec result rfl

end Tasks

end Ceph
