import HomelabMcp.ClusterConfig
import HomelabMcp.PercentCoding
import HomelabMcp.TextPairs

/-!
# The secrets that are redacted from logs

The server collects the secrets of its configuration for its Kubernetes and its Tekton clients.  Of
the database URL it takes the password as the URL has it, with its escapes; the driver decodes it.

* `mem_redactions`: a text is collected if it is one of the other secrets or that password.
* `database_password_redacted`: so the password of the driver is collected exactly if it has no
  escape, or is another secret.
* `escaped_password_shown`: a password that is not.
-/

namespace Services

open Config (CephClusterConfig)
open Interaction (okOr okOr_eq_ok bind_eq_ok)
open Json (Value)
open Text (Bytes)
open WebUrl (encodeURIComponent hasEscape isComponentChar percentDecode)
open Whatwg (UrlRecord)

/-- The secrets of the configuration. -/
structure SecretConfig where
  databaseUrl : String
  oidcClientSecret : String
  grafanaToken : String
  forgejoToken : String
  pacIncomingSecret : String
  cephClusters : List CephClusterConfig

/-- `add_common_tekton_redactions`. -/
def addCommonTektonRedactions (redactions : List String) (config : SecretConfig) : List String :=
  redactions ++ [config.forgejoToken, config.pacIncomingSecret]

/-- The keys of the keyring. -/
def keyringKeys (keyring : Value) : List String :=
  match (keyring.field "keys").asArray with
  | some keys => keys.filterMap fun entry => (entry.field "key").asStr
  | none => []

/-- The credentials of the Ceph clusters. -/
def cephCredentials (config : SecretConfig) : List String :=
  config.cephClusters.flatMap fun cluster => [cluster.username, cluster.password]

section Production

variable (parseUrl : String → Option UrlRecord) (parseJson : Bytes → Option Value)

/-- The redactions of `Services::production`. -/
def productionRedactions (config : SecretConfig) (keyringFile : Option Bytes) :
    Except String (List String) := do
  let redactions := [config.databaseUrl, config.oidcClientSecret, config.grafanaToken]
  let redactions := addCommonTektonRedactions redactions config
  let redactions := match (parseUrl config.databaseUrl).bind UrlRecord.passwordStr with
    | some password => redactions ++ [password]
    | none => redactions
  let redactions := redactions ++ cephCredentials config
  let keyring ← okOr "failed to read OAuth wrapping keyring for log redaction" keyringFile
  let keyring ← okOr "invalid OAuth wrapping keyring for log redaction" (parseJson keyring)
  pure (redactions ++ keyringKeys keyring)

end Production

/-- The password of the driver, which decodes the one of the URL. -/
def driverPassword (encoded : String) : Option String := Text.decode (percentDecode encoded.toList)

/-- The URL that the deployment program builds. -/
def databaseUrl (namespaceName postgresCaFile username password : String) : String :=
  "postgresql://" ++ encodeURIComponent username ++ ":" ++ encodeURIComponent password ++
    "@homelab-mcp-postgres-rw." ++ namespaceName ++
    ".svc:5432/homelab_mcp?sslmode=verify-full&sslrootcert=" ++ encodeURIComponent postgresCaFile

/-- What is documented of the parser: a password is ASCII, and what `encodeURIComponent` writes
stays as it is. -/
structure Documented (parseUrl : String → Option UrlRecord)
    (namespaceName postgresCaFile : String) : Prop where
  ascii : ∀ text url, parseUrl text = some url → ∀ c ∈ url.password.toList, c.toNat < 128
  encoded : ∀ username password, ∃ url,
    parseUrl (databaseUrl namespaceName postgresCaFile username password) = some url ∧
      url.password = encodeURIComponent password

/-- The secrets beside the password of the URL. -/
def otherSecrets (config : SecretConfig) (keyring : Value) : List String :=
  [config.databaseUrl, config.oidcClientSecret, config.grafanaToken, config.forgejoToken,
    config.pacIncomingSecret] ++ cephCredentials config ++ keyringKeys keyring

section Accepted

variable {parseUrl : String → Option UrlRecord} {parseJson : Bytes → Option Value}
  {namespaceName postgresCaFile : String} {config : SecretConfig} {keyringFile : Option Bytes}
  {redactions : List String}

/-- **What is collected**: the other secrets, and the password as the URL has it. -/
theorem mem_redactions
    (h : productionRedactions parseUrl parseJson config keyringFile = .ok redactions) :
    ∃ keyring, keyringFile.bind parseJson = some keyring ∧ ∀ secret, secret ∈ redactions ↔
      secret ∈ otherSecrets config keyring ∨
        (parseUrl config.databaseUrl).bind UrlRecord.passwordStr = some secret := by
  obtain ⟨bytes, hbytes, h⟩ := bind_eq_ok.mp h
  obtain ⟨keyring, hkeyring, h⟩ := bind_eq_ok.mp h
  obtain rfl := Except.ok.inj h
  rw [okOr_eq_ok] at hbytes hkeyring
  refine ⟨keyring, by rw [hbytes, Option.bind_some, hkeyring], ?_⟩
  intro secret
  cases (parseUrl config.databaseUrl).bind UrlRecord.passwordStr with
  | none =>
      simp only [addCommonTektonRedactions, otherSecrets, List.mem_append, List.mem_cons,
        List.not_mem_nil, reduceCtorEq]
      tauto
  | some password =>
      simp only [addCommonTektonRedactions, otherSecrets, List.mem_append, List.mem_cons,
        List.not_mem_nil, Option.some.injEq]
      rw [eq_comm (a := password)]
      tauto

/-- The password that `encodeURIComponent` wrote is what the driver decodes. -/
theorem driverPassword_encoded (password : String) :
    driverPassword (encodeURIComponent password) = some password :=
  WebUrl.decode_encodeURIComponent password

/-- Only the empty password is encoded to nothing. -/
theorem encodeURIComponent_eq_empty {password : String} :
    encodeURIComponent password = "" ↔ password = "" := by
  constructor
  · intro h
    have hdecoded := driverPassword_encoded password
    rw [h] at hdecoded
    exact (Option.some.inj hdecoded).symm
  · rintro rfl
    rfl

/-- **The password of the database.**  It is collected exactly if the URL has it without an escape,
or if it is another secret.  Of the URLs that the deployment program builds these are the ones whose
password is not empty and consists of characters that `encodeURIComponent` leaves. -/
theorem database_password_redacted (hparse : Documented parseUrl namespaceName postgresCaFile)
    (h : productionRedactions parseUrl parseJson config keyringFile = .ok redactions) :
    ∃ keyring, keyringFile.bind parseJson = some keyring ∧
      (∀ url encoded password, parseUrl config.databaseUrl = some url →
        url.passwordStr = some encoded → driverPassword encoded = some password →
        (password ∈ redactions ↔
          hasEscape encoded.toList = false ∨ password ∈ otherSecrets config keyring)) ∧
      ∀ username password,
        config.databaseUrl = databaseUrl namespaceName postgresCaFile username password →
        (password ∈ redactions ↔
          (password ≠ "" ∧ ∀ c ∈ password.toList, isComponentChar c = true) ∨
            password ∈ otherSecrets config keyring) := by
  obtain ⟨keyring, hkeyring, hmem⟩ := mem_redactions h
  refine ⟨keyring, hkeyring, ?_, ?_⟩
  · intro url encoded password hurl hencoded hdriver
    have hsame : url.password = encoded := by
      unfold UrlRecord.passwordStr at hencoded
      split_ifs at hencoded
      exact Option.some.inj hencoded
    have hascii : ∀ c ∈ encoded.toList, c.toNat < 128 := by
      rw [← hsame]
      exact hparse.ascii _ url hurl
    have hplain : encoded = password ↔ hasEscape encoded.toList = false := by
      rw [← WebUrl.decode_eq_self hascii]
      unfold driverPassword at hdriver
      rw [hdriver, Option.some.injEq, eq_comm]
    rw [hmem, hurl, Option.bind_some, hencoded, Option.some.injEq, hplain, or_comm]
  · intro username password hconfig
    obtain ⟨url, hurl, hpassword⟩ := hparse.encoded username password
    rw [← hconfig] at hurl
    rw [hmem, hurl, Option.bind_some, ← WebUrl.encodeURIComponent_eq_self, or_comm]
    unfold UrlRecord.passwordStr
    rw [hpassword]
    by_cases hempty : password = ""
    · rw [if_pos (encodeURIComponent_eq_empty.mpr hempty)]
      simp [hempty]
    · rw [if_neg (mt encodeURIComponent_eq_empty.mp hempty), Option.some.injEq,
        and_iff_right hempty]

end Accepted

section Deployment

/-- A parser of URLs of this form, on its parts. -/
def plainRecord (username password address : List Char) : UrlRecord :=
  let (server, tail) := (Text.splitOnce ['/'] address).getD (address, [])
  let (host, port) := (Text.splitOnce [':'] server).getD (server, [])
  let (path, query) := (Text.splitOnce ['?'] tail).getD (tail, [])
  { scheme := "postgresql"
    username := String.ofList username
    password := String.ofList password
    host := some (String.ofList host)
    port := some (Nat.ofDigitChars 10 port 0).toUInt16
    path := String.ofList ('/' :: path)
    query := some (String.ofList query)
    fragment := none }

/-- URLs of the form that the deployment program builds. -/
def plainUrl (text : String) : Option UrlRecord := do
  let rest ← Text.stripPrefix "postgresql://".toList text.toList
  let (userinfo, address) ← Text.splitOnce ['@'] rest
  let (username, password) ← Text.splitOnce [':'] userinfo
  if password.all fun c => c.toNat < 128 then some (plainRecord username password address) else none

/-- It leaves the password as it stands. -/
theorem plainRecord_password (username password address : List Char) :
    (plainRecord username password address).password = String.ofList password := rfl

/-- An encoded text has characters that are kept, and percent signs. -/
theorem mem_encoded {s : String} {c : Char} (h : c ∈ (encodeURIComponent s).toList) :
    isComponentChar c = true ∨ c = '%' := by
  have hmem : c ∈ WebUrl.encodeKeeping isComponentChar s.toList := by
    rwa [encodeURIComponent, String.toList_ofList] at h
  rcases WebUrl.mem_encodeKeeping hmem with hkept | hpercent | halnum
  · exact .inl hkept
  · exact .inr hpercent
  · exact .inl (by rw [isComponentChar, halnum, Bool.true_or])

/-- It has no others. -/
theorem notMem_encoded {s : String} {c : Char} (hchar : isComponentChar c = false)
    (hpercent : c ≠ '%') : c ∉ (encodeURIComponent s).toList := by
  intro hmem
  rcases mem_encoded hmem with h | h
  · rw [hchar] at h
    cases h
  · exact hpercent h

/-- It is ASCII. -/
theorem encoded_ascii (s : String) : ∀ c ∈ (encodeURIComponent s).toList, c.toNat < 128 := by
  intro c hc
  rcases mem_encoded hc with h | rfl
  · exact (WebUrl.isComponentChar_range h).2
  · decide

/-- So is a password that is read. -/
theorem plainUrl_eq_some {text : String} {url : UrlRecord} (h : plainUrl text = some url) :
    ∀ c ∈ url.password.toList, c.toNat < 128 := by
  simp only [plainUrl, Option.bind_eq_bind, Option.bind_eq_some_iff] at h
  obtain ⟨rest, -, ⟨userinfo, address⟩, -, ⟨username, password⟩, -, h⟩ := h
  split_ifs at h with hall
  obtain rfl := Option.some.inj h
  intro c hc
  rw [plainRecord_password, String.toList_ofList] at hc
  exact of_decide_eq_true (List.all_eq_true.mp hall c hc)

/-- The parts of the database URL. -/
theorem databaseUrl_toList (namespaceName postgresCaFile username password : String) :
    ∃ address, (databaseUrl namespaceName postgresCaFile username password).toList =
      "postgresql://".toList ++ (((encodeURIComponent username).toList ++ ':' ::
        (encodeURIComponent password).toList) ++ '@' :: address) := by
  have hcolon : ":".toList = [':'] := rfl
  have hmark : "@homelab-mcp-postgres-rw.".toList = '@' :: "homelab-mcp-postgres-rw.".toList := by
    rw [String.toList_ofList, String.toList_ofList]
  refine ⟨"homelab-mcp-postgres-rw.".toList ++ (namespaceName.toList ++
    (".svc:5432/homelab_mcp?sslmode=verify-full&sslrootcert=".toList ++
      (encodeURIComponent postgresCaFile).toList)), ?_⟩
  unfold databaseUrl
  simp only [String.toList_append]
  rw [hmark, hcolon]
  simp only [List.append_assoc, List.cons_append, List.nil_append]

/-- The password that is read of it is the encoded one. -/
theorem plainUrl_databaseUrl (namespaceName postgresCaFile username password : String) :
    ∃ url, plainUrl (databaseUrl namespaceName postgresCaFile username password) = some url ∧
      url.password = encodeURIComponent password := by
  have hcolon : ':' ∉ (encodeURIComponent username).toList :=
    notMem_encoded (by decide) (by decide)
  have hat : '@' ∉ (encodeURIComponent username).toList ++ ':' ::
      (encodeURIComponent password).toList := by
    rw [List.mem_append, List.mem_cons]
    rintro (h | h | h)
    · exact notMem_encoded (by decide) (by decide) h
    · exact absurd h (by decide)
    · exact notMem_encoded (by decide) (by decide) h
  obtain ⟨address, htext⟩ := databaseUrl_toList namespaceName postgresCaFile username password
  have hascii : (encodeURIComponent password).toList.all (fun c => c.toNat < 128) = true := by
    rw [List.all_eq_true]
    intro c hc
    exact decide_eq_true (encoded_ascii password c hc)
  have hparsed : plainUrl (databaseUrl namespaceName postgresCaFile username password) =
      some (plainRecord (encodeURIComponent username).toList
        (encodeURIComponent password).toList address) := by
    unfold plainUrl
    rw [Text.stripPrefix_iff.mpr htext]
    simp only [Option.bind_eq_bind, Option.bind_some, Text.splitOnce_append hat,
      Text.splitOnce_append hcolon, hascii, if_true]
  refine ⟨_, hparsed, ?_⟩
  rw [plainRecord_password, String.ofList_toList]

/-- The parser behaves as documented. -/
theorem plainUrl_documented (namespaceName postgresCaFile : String) :
    Documented plainUrl namespaceName postgresCaFile where
  ascii := fun _ _ => plainUrl_eq_some
  encoded := plainUrl_databaseUrl namespaceName postgresCaFile

/-- A keyring without keys. -/
def plainKeyring (bytes : Bytes) : Option Value :=
  if bytes = [0x7b, 0x7d] then some (.object []) else none

/-- A deployment with a password. -/
def deployment (password : String) : SecretConfig where
  databaseUrl := databaseUrl "mcp" "/ca" "app" password
  oidcClientSecret := "oidc"
  grafanaToken := "grafana"
  forgejoToken := "forgejo"
  pacIncomingSecret := "pac"
  cephClusters := []

/-- Its redactions. -/
theorem deployment_redactions (password : String) :
    ∃ redactions, productionRedactions plainUrl plainKeyring (deployment password)
      (some [0x7b, 0x7d]) = .ok redactions := ⟨_, rfl⟩

/-- A password with a sign in it is encoded. -/
theorem encoded_example : encodeURIComponent "p@ss" = "p%40ss" := by decide

/-- It is no other secret of the deployment. -/
theorem notMem_otherSecrets :
    "p@ss" ∉ otherSecrets (deployment "p@ss") (.object []) := by
  have hurl : "p@ss" ≠ (deployment "p@ss").databaseUrl := by
    intro h
    obtain ⟨address, htext⟩ := databaseUrl_toList "mcp" "/ca" "app" "p@ss"
    have hsecond := congrArg (·[1]?) ((congrArg String.toList h).trans htext)
    simp at hsecond
  have hothers : "p@ss" ∉ ["oidc", "grafana", "forgejo", "pac"] := by decide
  intro hmem
  rcases List.mem_cons.mp hmem with h | h
  · exact hurl h
  · exact hothers h

/-- A plain password is redacted. -/
theorem database_password_redacted_plain : ∃ redactions keyring,
    productionRedactions plainUrl plainKeyring (deployment "pass") (some [0x7b, 0x7d]) =
      .ok redactions ∧
    ("pass" ∈ redactions ↔
      ("pass" ≠ "" ∧ ∀ c ∈ "pass".toList, isComponentChar c = true) ∨
        "pass" ∈ otherSecrets (deployment "pass") keyring) := by
  obtain ⟨redactions, h⟩ := deployment_redactions "pass"
  obtain ⟨keyring, -, -, hbuilt⟩ := database_password_redacted (plainUrl_documented "mcp" "/ca") h
  exact ⟨redactions, keyring, h, hbuilt "app" "pass" rfl⟩

/-- **A password that is shown.**  The driver uses `p@ss`; what is redacted is `p%40ss`. -/
theorem escaped_password_shown : ∃ redactions url,
    productionRedactions plainUrl plainKeyring (deployment "p@ss") (some [0x7b, 0x7d]) =
      .ok redactions ∧
    plainUrl (deployment "p@ss").databaseUrl = some url ∧
    url.passwordStr.bind driverPassword = some "p@ss" ∧ "p@ss" ∉ redactions := by
  obtain ⟨redactions, h⟩ := deployment_redactions "p@ss"
  obtain ⟨url, hurl, hpassword⟩ := plainUrl_databaseUrl "mcp" "/ca" "app" "p@ss"
  have hencoded : url.passwordStr = some "p%40ss" := by
    rw [UrlRecord.passwordStr, hpassword, encoded_example, if_neg (by decide)]
  obtain ⟨keyring, hkeyring, hmem⟩ := mem_redactions h
  obtain rfl := Option.some.inj hkeyring
  refine ⟨redactions, url, h, hurl, ?_, ?_⟩
  · rw [hencoded, Option.bind_some, ← encoded_example]
    exact driverPassword_encoded "p@ss"
  · rw [hmem]
    rintro (hother | hurlPassword)
    · exact notMem_otherSecrets hother
    · have hrecord : plainUrl (deployment "p@ss").databaseUrl = some url := hurl
      rw [hrecord, Option.bind_some, hencoded] at hurlPassword
      exact absurd (Option.some.inj hurlPassword) (by decide)

end Deployment

end Services
