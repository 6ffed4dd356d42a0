import HomelabMcp.KubernetesNormalize
import HomelabMcp.StableSort

/-!
# The Kubernetes client

The paths of the API and the paged list as a program that runs kubectl.  A run of kubectl is one
operation; any result of the runner may come back.

The JSON parser is a parameter.  Queries by name, capabilities, pod logs and mutations are left
out.
-/

namespace Kubernetes

open Interaction
open Json (Value)
open Text (Bytes)

/-- A run of kubectl. -/
structure Run where
  arguments : List String
  operation : Operation
  deriving DecidableEq

/-- What a run of kubectl answers. -/
abbrev Ran (_ : Run) : Type := Except Error Output

/-- A call of the client, which may fail. -/
abbrev ClientCall := Fallible Ran Error

/-- What `raw_cancelled` runs. -/
def rawRun (path : String) (operation : Operation) : Run :=
  ⟨["get", "--raw=" ++ path], operation⟩

/-- `raw_cancelled`. -/
def rawCancelled (path : String) (operation : Operation) : ClientCall Bytes := do
  let result ← (ask (rawRun path operation) : ClientCall (Except Error Output))
  answer (result.map Output.stdout)

/-- `parse_json`. -/
def parseJson (parser : Bytes → Option Value) (bytes : Bytes) : Except Error Value :=
  okOr .invalidResponse (parser bytes)

/-- `object_path`. -/
def objectPath (kind : ResourceKind) (ns name : Option String) : Except Error String :=
  if kind.namespaced && ns.isNone && name.isSome then .error .invalidArguments
  else
    let (start, version, resource) := kind.mapping
    let namespaces := match kind.namespaced, ns with
      | true, some ns => "/namespaces/" ++ ns
      | _, _ => ""
    let object := match name with
      | some name => "/" ++ name
      | none => ""
    .ok ("/" ++ start ++ "/" ++ version ++ namespaces ++ "/" ++ resource ++ object)

/-- A selector of the labels, if there are any. -/
def selector (labels : List (String × String)) : Option String :=
  if labels.isEmpty then none
  else some (String.intercalate "," (labels.map fun (key, value) => key ++ "=" ++ value))

/-- The digits of percent encoding. -/
def hexUpper (n : Nat) : Char := if n < 10 then Char.ofNat (48 + n) else Char.ofNat (55 + n)

/-- Percent-encode every character that is not an ASCII letter or digit. -/
def encode (value : String) : String :=
  String.ofList (value.toList.flatMap fun c =>
    if c.isAlphanum then [c]
    else (String.utf8EncodeChar c).flatMap fun b =>
      ['%', hexUpper (b.toNat / 16), hexUpper (b.toNat % 16)])

/-- The bounds of a listing. -/
def maxPages : Nat := 5
def maxInspected : Nat := 500

/-- How many items the next page may have. -/
def requested (inspected : Nat) : Nat := min (maxInspected - inspected) 100

/-- The path of a page. -/
def listPath (base : String) (labels : List (String × String)) (requested : Nat)
    (continuation : Option String) : String :=
  let labelSelector := match selector labels with
    | some selector => "&labelSelector=" ++ encode selector
    | none => ""
  let continuation := match continuation with
    | some token => "&continue=" ++ encode token
    | none => ""
  base ++ "?limit=" ++ toString requested ++ labelSelector ++ continuation

/-- The continuation in the metadata of a page. -/
def readContinuation : Option Value → Except Error (Option String)
  | none | some .null => .ok none
  | some (.string value) =>
      if value.isEmpty then .ok none
      else if value.utf8ByteSize ≤ 4096 && Text.noControl value then .ok (some value)
      else .error .invalidResponse
  | some _ => .error .invalidResponse

/-- The items of a page and its continuation. -/
def readPage (inspected : Nat) (wrapper : Value) : Except Error (List Value × Option String) := do
  let page ← okOr .invalidResponse ((wrapper.get "items").bind Value.asArray)
  let metadata ← okOr .invalidResponse ((wrapper.get "metadata").bind Value.asObject)
  if page.length > requested inspected then .error .invalidResponse
  else do
    let continuation ← readContinuation (metadata.lookup "continue")
    return (page.take (maxInspected - inspected), continuation)

/-- What the loop has found: the items, the number of pages, and whether there may be more. -/
structure Listing where
  items : List Value
  pages : Nat
  sourceTruncated : Bool

/-- The rest of a list, with the pages that are left. -/
def listFrom (parser : Bytes → Option Value) (base : String) (labels : List (String × String)) :
    Nat → List Value → Option String → List String → ClientCall Listing
  | 0, items, _, _ => pure ⟨items, maxPages, true⟩
  | left + 1, items, continuation, seen =>
      if maxInspected - items.length = 0 then
        pure ⟨items, maxPages - (left + 1), continuation.isSome⟩
      else do
        let bytes ← rawCancelled
          (listPath base labels (requested items.length) continuation) .query
        let wrapper ← answer (parseJson parser bytes)
        let (page, next) ← answer (readPage items.length wrapper)
        match next with
        | none => return ⟨items ++ page, maxPages - left, false⟩
        | some token => do
            ensure (!seen.contains token) .invalidResponse
            listFrom parser base labels left (items ++ page) (some token) (token :: seen)

/-- The counts and flags of a listing. -/
structure ListMetadata where
  pages : UInt8
  inspected : UInt16
  returned : UInt16
  sourceTruncated : Bool
  resultTruncated : Bool
  aggregateTruncated : Bool
  truncated : Bool
  deriving DecidableEq

/-- A listing as it is returned. -/
structure ResourceList where
  kind : ResourceKind
  items : List Resource
  metadata : ListMetadata
  deriving DecidableEq

/-- Resources are listed by namespace, none first, and then by name. -/
def Resource.place (r : Resource) : WithBot String ×ₗ String := toLex (r.ns, r.name)

/-- The result for the resources found. -/
def listResult (query : ResourceQuery) (listing : Listing) (normalized : List Resource) :
    ResourceList :=
  let sorted := StableSort.sortByKey Resource.place normalized
  let resultTruncated := decide (sorted.length > query.limit.toNat)
  let items := sorted.take query.limit.toNat
  let (items, aggregateTruncated) :=
    if query.kind = .event then boundEventMessages items else (items, false)
  { kind := query.kind
    items := items
    metadata := {
      pages := listing.pages.toUInt8
      inspected := listing.items.length.toUInt16
      returned := items.length.toUInt16
      sourceTruncated := listing.sourceTruncated
      resultTruncated := resultTruncated
      aggregateTruncated := aggregateTruncated
      truncated := listing.sourceTruncated || resultTruncated || aggregateTruncated } }

/-- `list_cancelled`. -/
def listCancelled (parser : Bytes → Option Value) (query : ResourceQuery) :
    ClientCall ResourceList := do
  let base ← answer (objectPath query.kind query.ns none)
  let listing ← listFrom parser base query.labels maxPages [] none []
  let normalized ← answer (listing.items.mapM (resource query.kind))
  return listResult query listing normalized

end Kubernetes
