import HomelabMcp.MachineInventory

/-!
# The table of machines

The table behind the inventory, with the constraints it was created with, and what the statements
of the repository do to it.  PostgreSQL is third-party: a statement is carried out as a whole or not
at all, and the constraints are checked on the contents it would leave.

Over it stands the catalogue: the machine of every id, with no rows and no statements.

* `passes_of_checked`: what the repository has checked passes the constraints on single rows;
* `fetch_done` and the lemmas before it: each statement does to the catalogue what its request is
  for.
-/

namespace Inventory

/-- The largest list. -/
def maxListLimit : Nat := 100

/-- The requests to the repository. -/
inductive Request where
  | create (input : CreateMachine)
  | get (id : Uuid)
  | list (limit : UInt16)
  | update (id : Uuid) (input : UpdateMachine)
  | replaceHostKey (id : Uuid) (hostPublicKey : String)
  | clearHostKey (id : Uuid)
  | delete (id : Uuid)

/-- An error of a request; the limit of a list has an error of its own. -/
inductive Failure where
  | listLimit
  | of (e : RepositoryError)
  deriving DecidableEq

/-- `validate_list_limit`. -/
def validateListLimit (limit : UInt16) : Except Failure Unit :=
  if 1 ≤ limit.toNat ∧ limit.toNat ≤ maxListLimit then .ok () else .error .listLimit

section Checks

variable (decode : String → Option Text.Bytes)

/-- The errors of a validation as errors of a request. -/
def validated (r : Except ValidationError Unit) : Except Failure Unit :=
  r.mapError fun e => .of (.validation e)

/-- What is checked of a request before anything is sent. -/
def Request.check : Request → Except Failure Unit
  | .create input => do
      validated (validateMachineFields input.displayName input.sshHost input.sshPort
        input.sshUsername)
      if let some key := input.pinnedHostPublicKey then
        validated (validateHostPublicKey decode key)
  | .list limit => validateListLimit limit
  | .update _ input =>
      validated (validateMachineFields input.displayName input.sshHost input.sshPort
        input.sshUsername)
  | .replaceHostKey _ key => validated (validateHostPublicKey decode key)
  | .get _ | .clearHostKey _ | .delete _ => .ok ()

end Checks

/-- A request with the id that a new machine would get. -/
structure Call where
  request : Request
  newId : Uuid

/-- The machine of every id. -/
abbrev Catalog := Uuid → Option Machine

namespace Catalog

/-- Another machine than the one of `id` has that name. -/
def TakenBy (c : Catalog) (name : String) (id : Uuid) : Prop :=
  ∃ other machine, other ≠ id ∧ c other = some machine ∧ machine.displayName = name

/-- The catalogue with a machine in its place. -/
def put (c : Catalog) (machine : Machine) : Catalog := Function.update c machine.id (some machine)

/-- The machines of a list are in their order, the first ones of all, and as many as asked for
where there are as many. -/
structure Lists (order : Machine → Machine → Bool) (c : Catalog) (limit : Nat)
    (machines : List Machine) : Prop where
  sorted : machines.Pairwise fun a b => order a b
  nodup : (machines.map Machine.id).Nodup
  present : ∀ m ∈ machines, c m.id = some m
  bounded : machines.length ≤ limit
  complete : machines.length < limit → ∀ id m, c id = some m → m ∈ machines
  first : ∀ m ∈ machines, ∀ id m', c id = some m' → m' ∉ machines → order m m'

end Catalog

/-- The machine that is created. -/
def created (call : Call) (input : CreateMachine) (now : Int) : Machine where
  id := call.newId
  displayName := input.displayName
  sshHost := input.sshHost
  sshPort := input.sshPort
  sshUsername := input.sshUsername
  pinnedHostPublicKey := input.pinnedHostPublicKey
  createdAt := now
  updatedAt := now

/-- The machine that is changed. -/
def Machine.updated (machine : Machine) (input : UpdateMachine) (now : Int) : Machine :=
  { machine with
    displayName := input.displayName
    sshHost := input.sshHost
    sshPort := input.sshPort
    sshUsername := input.sshUsername
    updatedAt := now }

/-- The machine with another pin. -/
def Machine.pinned (machine : Machine) (hostPublicKey : Option String) (now : Int) : Machine :=
  { machine with pinnedHostPublicKey := hostPublicKey, updatedAt := now }

section Allowed

variable (decode : String → Option Text.Bytes) (order : Machine → Machine → Bool)

/-- What a request that is carried out does to the catalogue, and the machines it answers with. -/
def Done (c : Catalog) (call : Call) (now : Int) (machines : List Machine) (c' : Catalog) : Prop :=
  match call.request with
  | .create input =>
      c call.newId = none ∧ ¬ c.TakenBy input.displayName call.newId ∧
        machines = [created call input now] ∧ c' = c.put (created call input now)
  | .get id => ∃ machine, c id = some machine ∧ machines = [machine] ∧ c' = c
  | .list limit => c.Lists order limit.toNat machines ∧ c' = c
  | .update id input => ∃ machine, c id = some machine ∧ ¬ c.TakenBy input.displayName id ∧
      machines = [machine.updated input now] ∧ c' = c.put (machine.updated input now)
  | .replaceHostKey id key => ∃ machine, c id = some machine ∧
      machines = [machine.pinned (some key) now] ∧ c' = c.put (machine.pinned (some key) now)
  | .clearHostKey id => ∃ machine, c id = some machine ∧
      machines = [machine.pinned none now] ∧ c' = c.put (machine.pinned none now)
  | .delete id => ∃ machine, c id = some machine ∧ machines = [] ∧ c' = Function.update c id none

/-- The id a request is about, if that must exist. -/
def Request.target : Request → Option Uuid
  | .create _ | .list _ => none
  | .get id | .update id _ | .replaceHostKey id _ | .clearHostKey id | .delete id => some id

/-- The catalogue has another machine with the name, or one with the id that is new. -/
def Conflicts (c : Catalog) (call : Call) : Prop :=
  match call.request with
  | .create input => c.TakenBy input.displayName call.newId ∨ c call.newId ≠ none
  | .update id input => c.TakenBy input.displayName id
  | _ => False

/-- The outcomes a request may have.  Only the errors that say so mean that nothing was done. -/
def Allowed (c : Catalog) (call : Call) (outcome : Except Failure (List Machine)) (c' : Catalog) :
    Prop :=
  call.request.check decode = .ok () ∧
    match outcome with
    | .ok machines => ∃ now, Done order c call now machines c'
    | .error (.of .notFound) => c' = c ∧ ∃ id ∈ call.request.target, c id = none
    | .error (.of .conflict) => c' = c ∧ Conflicts c call
    | .error (.of .database) => c' = c ∨ ∃ now machines, Done order c call now machines c'
    | .error (.of (.validation _)) | .error .listLimit => False

end Allowed

/-- What is true of a catalogue whose machines all came through the repository. -/
structure Catalog.Valid (decode : String → Option Text.Bytes) (c : Catalog) : Prop where
  ids : ∀ id m, c id = some m → m.id = id
  fields : ∀ id m, c id = some m →
    validateMachineFields m.displayName m.sshHost m.sshPort m.sshUsername = .ok ()
  pins : ∀ id m, c id = some m →
    ∀ key ∈ m.pinnedHostPublicKey, validateHostPublicKey decode key = .ok ()
  names : ∀ id m, c id = some m → ¬ c.TakenBy m.displayName id

/-- A row of the table. -/
structure Row where
  id : Uuid
  displayName : String
  sshHost : String
  sshPort : Int
  sshUsername : String
  pinnedHostPublicKey : Option String
  createdAt : Int
  updatedAt : Int
  deriving DecidableEq

/-- The machine of a row; there is none where the port is not one, which the source does not
survive. -/
def machineFromRow (row : Row) : Option Machine :=
  if 0 ≤ row.sshPort ∧ row.sshPort < 65536 then
    some ⟨row.id, row.displayName, row.sshHost, UInt16.ofNat row.sshPort.toNat, row.sshUsername,
      row.pinnedHostPublicKey, row.createdAt, row.updatedAt⟩
  else none

/-- The number of characters of a text is within the bounds. -/
def between (least most : Nat) (text : String) : Bool :=
  least ≤ text.toList.length && text.toList.length ≤ most

/-- The constraints on single rows. -/
def Row.passes (row : Row) : Bool :=
  between 1 100 row.displayName && between 1 253 row.sshHost && row.sshPort == 22 &&
    row.sshUsername == "homelab" && row.pinnedHostPublicKey.all (between 1 256)

/-- A table that satisfies its constraints: the checks, the primary key and the unique names. -/
structure Table where
  rows : List Row
  checked : ∀ row ∈ rows, row.passes = true
  ids : (rows.map Row.id).Nodup
  names : (rows.map Row.displayName).Nodup

namespace Table

/-- The contents that a statement would leave, or the SQLSTATE of the constraint they violate:
23514 of a check, 23505 of a unique key. PostgreSQL documents both, and that the checks come
first. -/
def ofRows (rows : List Row) : Except String Table :=
  if hchecked : ∀ row ∈ rows, row.passes = true then
    if hunique : (rows.map Row.id).Nodup ∧ (rows.map Row.displayName).Nodup then
      .ok ⟨rows, hchecked, hunique.1, hunique.2⟩
    else .error "23505"
  else .error "23514"

/-- `UPDATE ... WHERE id = $1 RETURNING`: the row as it is afterwards, if there is one. -/
def change (t : Table) (id : Uuid) (f : Row → Row) : Except String (Table × Option Row) :=
  (ofRows (t.rows.map fun row => if row.id = id then f row else row)).map fun t' =>
    (t', (t.rows.find? (·.id == id)).map f)

/-- `DELETE ... WHERE id = $1`. -/
def without (t : Table) (id : Uuid) : Table where
  rows := t.rows.filter (·.id != id)
  checked row h := t.checked row (List.mem_of_mem_filter h)
  ids := t.ids.sublist (List.filter_sublist.map _)
  names := t.names.sublist (List.filter_sublist.map _)

/-- A statement that returns a row, carried out at a time. A statement in PostgreSQL is atomic,
and `RETURNING` gives the row as it was written. -/
def fetch (now : Int) (t : Table) (statement : Statement) :
    Option (Except String (Table × Option Row)) :=
  match statement.binds with
  | [.uuid id, .text displayName, .text sshHost, .int4 sshPort, .text sshUsername,
      .nullableText pinnedHostPublicKey] =>
      if statement.sql = createSql then
        let row : Row := ⟨id, displayName, sshHost, sshPort, sshUsername, pinnedHostPublicKey, now,
          now⟩
        some ((ofRows (t.rows ++ [row])).map fun t' => (t', some row))
      else none
  | [.uuid id, .text displayName, .text sshHost, .int4 sshPort, .text sshUsername] =>
      if statement.sql = updateSql then
        some (t.change id fun row =>
          { row with displayName, sshHost, sshPort, sshUsername, updatedAt := now })
      else none
  | [.uuid id, .nullableText pinnedHostPublicKey] =>
      if statement.sql = setHostKeySql then
        some (t.change id fun row => { row with pinnedHostPublicKey, updatedAt := now })
      else none
  | [.uuid id] =>
      if statement.sql = getSql then some (.ok (t, t.rows.find? (·.id == id))) else none
  | _ => none

/-- A statement that returns a count, of the rows it deleted. -/
def execute (t : Table) (statement : Statement) : Option (Table × Nat) :=
  match statement.binds with
  | [.uuid id] =>
      if statement.sql = deleteSql then
        some (t.without id, (t.rows.filter (·.id == id)).length)
      else none
  | _ => none

end Table

/-- How the database compares names: any total preorder, as a collation of PostgreSQL is one.  Names
that it does not tell apart are listed by id. -/
structure Collation where
  le : String → String → Bool
  trans : ∀ a b c, le a b = true → le b c = true → le a c = true
  total : ∀ a b, (le a b || le b a) = true

/-- The order of a list: by name, then by id. -/
def Collation.order (collation : Collation) (a b : String × Uuid) : Bool :=
  collation.le a.1 b.1 && (!collation.le b.1 a.1 || decide (a.2 ≤ b.2))

/-- What a list is ordered by. -/
def Row.key (row : Row) : String × Uuid := (row.displayName, row.id)

/-- The same of a machine. -/
def Machine.key (machine : Machine) : String × Uuid := (machine.displayName, machine.id)

/-- `ORDER BY display_name, id LIMIT $1`. -/
def Table.list (collation : Collation) (t : Table) (limit : Nat) : List Row :=
  (t.rows.mergeSort fun a b => collation.order a.key b.key).take limit

/-- The catalogue the rows of a table stand for. -/
def catalogOf (rows : List Row) : Catalog :=
  fun id => (rows.find? (·.id == id)).bind machineFromRow

/-- The catalogue of a table. -/
def Table.catalog (t : Table) : Catalog := catalogOf t.rows

/-- The port of a row that passes is the one port. -/
theorem Row.port_of_passes {row : Row} (h : row.passes = true) : row.sshPort = 22 := by
  simp only [Row.passes, Bool.and_eq_true, beq_iff_eq] at h
  exact h.1.1.2

/-- **The machine of a row that passes is there.** -/
theorem machineFromRow_of_passes {row : Row} (h : row.passes = true) :
    machineFromRow row = some ⟨row.id, row.displayName, row.sshHost, defaultSshPort,
      row.sshUsername, row.pinnedHostPublicKey, row.createdAt, row.updatedAt⟩ := by
  have hport := Row.port_of_passes h
  rw [machineFromRow, if_pos (by omega), hport]
  rfl

/-- The machine of a row is ordered as the row is. -/
theorem machineFromRow_key {row : Row} {machine : Machine}
    (h : machineFromRow row = some machine) : machine.key = row.key := by
  rw [machineFromRow] at h
  split_ifs at h
  cases h
  rfl

/-- It has the row's id. -/
theorem machineFromRow_id {row : Row} {machine : Machine}
    (h : machineFromRow row = some machine) : machine.id = row.id :=
  congrArg Prod.snd (machineFromRow_key h)

/-- And its name. -/
theorem machineFromRow_name {row : Row} {machine : Machine}
    (h : machineFromRow row = some machine) : machine.displayName = row.displayName :=
  congrArg Prod.fst (machineFromRow_key h)

/-- Every row of a table is a machine. -/
theorem Table.exists_machine (t : Table) {row : Row} (h : row ∈ t.rows) :
    ∃ machine, machineFromRow row = some machine :=
  ⟨_, machineFromRow_of_passes (t.checked row h)⟩

/-- The row of an id is the only one. -/
theorem Table.find_eq_some (t : Table) {id : Uuid} {row : Row} :
    t.rows.find? (·.id == id) = some row ↔ row ∈ t.rows ∧ row.id = id := by
  constructor
  · intro h
    exact ⟨List.mem_of_find?_eq_some h, by simpa using List.find?_some h⟩
  · rintro ⟨hmem, rfl⟩
    cases hfind : t.rows.find? (·.id == row.id) with
    | none => exact absurd (List.find?_eq_none.mp hfind row hmem) (by simp)
    | some other =>
        have hother : other.id = row.id := by simpa using List.find?_some hfind
        have hsame := List.inj_on_of_nodup_map t.ids (List.mem_of_find?_eq_some hfind) hmem hother
        rw [hsame]

/-- A machine of the catalogue is one of the rows. -/
theorem Table.catalog_eq_some (t : Table) {id : Uuid} {machine : Machine} :
    t.catalog id = some machine ↔
      ∃ row ∈ t.rows, row.id = id ∧ machineFromRow row = some machine := by
  rw [Table.catalog, catalogOf, Option.bind_eq_some_iff]
  constructor
  · rintro ⟨row, hfind, hmachine⟩
    obtain ⟨hmem, hid⟩ := t.find_eq_some.mp hfind
    exact ⟨row, hmem, hid, hmachine⟩
  · rintro ⟨row, hmem, hid, hmachine⟩
    exact ⟨row, t.find_eq_some.mpr ⟨hmem, hid⟩, hmachine⟩

/-- An id without machine is one of no row. -/
theorem Table.catalog_eq_none (t : Table) {id : Uuid} :
    t.catalog id = none ↔ ∀ row ∈ t.rows, row.id ≠ id := by
  constructor
  · intro h row hmem hid
    obtain ⟨machine, hmachine⟩ := t.exists_machine hmem
    have hsome := t.catalog_eq_some.mpr ⟨row, hmem, hid, hmachine⟩
    rw [h] at hsome
    cases hsome
  · intro h
    cases hfound : t.catalog id with
    | none => rfl
    | some machine =>
        obtain ⟨row, hmem, hid, -⟩ := t.catalog_eq_some.mp hfound
        exact absurd hid (h row hmem)

/-- A name is taken where another row has it. -/
theorem Table.takenBy_iff (t : Table) {name : String} {id : Uuid} :
    t.catalog.TakenBy name id ↔ ∃ row ∈ t.rows, row.id ≠ id ∧ row.displayName = name := by
  constructor
  · rintro ⟨other, machine, hne, hfound, hname⟩
    obtain ⟨row, hmem, hid, hmachine⟩ := t.catalog_eq_some.mp hfound
    refine ⟨row, hmem, by rwa [hid], ?_⟩
    rw [← hname, machineFromRow_name hmachine]
  · rintro ⟨row, hmem, hne, hname⟩
    obtain ⟨machine, hmachine⟩ := t.exists_machine hmem
    refine ⟨row.id, machine, hne, t.catalog_eq_some.mpr ⟨row, hmem, rfl, hmachine⟩, ?_⟩
    rw [machineFromRow_name hmachine, hname]

/-- A new row is a new machine. -/
theorem catalogOf_append {rows : List Row} {row : Row} (hnew : ∀ r ∈ rows, r.id ≠ row.id) :
    catalogOf (rows ++ [row]) = Function.update (catalogOf rows) row.id (machineFromRow row) := by
  funext id
  rw [catalogOf, List.find?_append]
  by_cases hid : id = row.id
  · subst hid
    have hnone : rows.find? (·.id == row.id) = none := by
      apply List.find?_eq_none.mpr
      intro r hr
      simpa using hnew r hr
    simp [hnone]
  · have hother : ¬ row.id = id := fun h => hid h.symm
    simp [Function.update_of_ne hid, catalogOf, hother]

/-- A row that is changed is a machine that is changed. -/
theorem catalogOf_change {rows : List Row} {id : Uuid} {f : Row → Row} {row : Row}
    (hf : ∀ r, (f r).id = r.id) (hfind : rows.find? (·.id == id) = some row) :
    catalogOf (rows.map fun r => if r.id = id then f r else r) =
      Function.update (catalogOf rows) id (machineFromRow (f row)) := by
  have hkeeps (other : Uuid) : ((fun r : Row => r.id == other) ∘
      fun r => if r.id = id then f r else r) = fun r => r.id == other := by
    funext r
    by_cases hr : r.id = id
    · simp [hr, hf]
    · simp [hr]
  funext other
  rw [catalogOf, List.find?_map, hkeeps]
  by_cases hid : other = id
  · subst hid
    have hrow : row.id = other := by simpa using List.find?_some hfind
    simp [hfind, hrow]
  · rw [Function.update_of_ne hid, catalogOf]
    cases hfound : rows.find? (·.id == other) with
    | none => rfl
    | some r =>
        have hr : r.id = other := by simpa using List.find?_some hfound
        have hne : ¬ r.id = id := by rwa [hr]
        simp [hne]

/-- A row that is deleted is a machine that is gone. -/
theorem Table.catalog_without (t : Table) (id : Uuid) :
    (t.without id).catalog = Function.update t.catalog id none := by
  funext other
  by_cases hid : other = id
  · subst hid
    rw [Function.update_self, Table.catalog_eq_none]
    intro row hrow
    simpa using (List.mem_filter.mp hrow).2
  · rw [Function.update_of_ne hid, Table.catalog, Table.without, catalogOf, List.find?_filter]
    have hsame : (fun row : Row => decide ((row.id != id) = true ∧ (row.id == other) = true)) =
        fun row => row.id == other := by
      funext row
      by_cases hrow : row.id = other
      · simp [hrow, hid]
      · simp [hrow]
    rw [hsame]
    rfl

section Passes

variable {decode : String → Option Text.Bytes}

/-- A text that is not empty, and not longer, passes. -/
theorem between_of {least most : Nat} {text : String} (hnonempty : text.toList ≠ [])
    (hleast : least ≤ 1) (hmost : text.utf8ByteSize ≤ most) : between least most text = true := by
  have hlength := Text.length_le_utf8ByteSize text
  have hpos : 0 < text.toList.length := List.length_pos_iff.mpr hnonempty
  simp only [between, Bool.and_eq_true, decide_eq_true_eq]
  omega

/-- The fields that are validated are these. -/
theorem validateMachineFields_eq_ok {displayName sshHost sshUsername : String} {sshPort : UInt16}
    (h : validateMachineFields displayName sshHost sshPort sshUsername = .ok ()) :
    displayName.toList ≠ [] ∧ displayName.utf8ByteSize ≤ 100 ∧ validSshHost sshHost = true ∧
      sshPort = defaultSshPort ∧ sshUsername = defaultSshUsername := by
  unfold validateMachineFields at h
  split_ifs at h with hname hhost hport husername
  simp only [Bool.or_eq_true, not_or, decide_eq_true_eq] at hname
  refine ⟨?_, by omega, by simpa using hhost, by simpa using hport, by simpa using husername⟩
  intro hempty
  have hisEmpty := hname.1.1.1
  simp [String.toList_eq_nil_iff.mp hempty] at hisEmpty

/-- A host passes. -/
theorem between_of_validSshHost {host : String} (h : validSshHost host = true) :
    between 1 253 host = true := by
  obtain ⟨hempty, hsize, -⟩ := validSshHost_cases h
  apply between_of _ le_rfl hsize
  intro hnil
  simp [String.toList_eq_nil_iff.mp hnil] at hempty

/-- A key passes. -/
theorem between_of_validateHostPublicKey {key : String}
    (h : validateHostPublicKey decode key = .ok ()) : between 1 256 key = true := by
  unfold validateHostPublicKey at h
  split_ifs at h with hbad
  simp only [Bool.or_eq_true, not_or, decide_eq_true_eq] at hbad
  apply between_of _ le_rfl (by omega)
  intro hnil
  obtain rfl := String.toList_eq_nil_iff.mp hnil
  simp [Text.split, Text.pieces] at h

/-- The fields of a row that were checked, whatever key it has. -/
structure Row.FieldsOf (row : Row) (displayName sshHost : String) (sshPort : UInt16)
    (sshUsername : String) : Prop where
  name : row.displayName = displayName
  host : row.sshHost = sshHost
  port : row.sshPort = sshPort.toNat
  username : row.sshUsername = sshUsername

/-- A row of validated fields passes with its pin. -/
theorem Row.passes_of_fields {row : Row} {displayName sshHost sshUsername : String}
    {sshPort : UInt16} (hrow : row.FieldsOf displayName sshHost sshPort sshUsername)
    (hfields : validateMachineFields displayName sshHost sshPort sshUsername = .ok ())
    (hpin : row.pinnedHostPublicKey.all (between 1 256) = true) : row.passes = true := by
  obtain ⟨hname, hsize, hhost, hport, husername⟩ := validateMachineFields_eq_ok hfields
  have hport' : row.sshPort = 22 := by
    rw [hrow.port, hport]
    rfl
  simp only [Row.passes, Bool.and_eq_true, beq_iff_eq]
  refine ⟨⟨⟨⟨?_, ?_⟩, hport'⟩, ?_⟩, hpin⟩
  · rw [hrow.name]
    exact between_of hname le_rfl hsize
  · rw [hrow.host]
    exact between_of_validSshHost hhost
  · rw [hrow.username, husername]
    rfl

/-- The pin of a row that passes, passes. -/
theorem Row.pin_of_passes {row : Row} (h : row.passes = true) :
    row.pinnedHostPublicKey.all (between 1 256) = true := by
  simp only [Row.passes, Bool.and_eq_true] at h
  exact h.2

/-- A row passes with another pin that does. -/
theorem Row.passes_of_pin {row : Row} {key : Option String} {now : Int} (h : row.passes = true)
    (hpin : key.all (between 1 256) = true) :
    ({ row with pinnedHostPublicKey := key, updatedAt := now } : Row).passes = true := by
  simp only [Row.passes, Bool.and_eq_true] at h ⊢
  exact ⟨h.1, hpin⟩

end Passes

namespace Table

/-- A table that is accepted has these rows. -/
theorem ofRows_eq_ok {rows : List Row} {t : Table} (h : ofRows rows = .ok t) : t.rows = rows := by
  rw [ofRows] at h
  split_ifs at h
  cases h
  rfl

/-- The rows of a table are accepted. -/
theorem ofRows_rows (t : Table) : ofRows t.rows = .ok t := by
  rw [ofRows, dif_pos t.checked, dif_pos ⟨t.ids, t.names⟩]

/-- Rows that are checked are refused for a key only. -/
theorem ofRows_eq_error {rows : List Row} {code : String}
    (hchecked : ∀ row ∈ rows, row.passes = true) (h : ofRows rows = .error code) :
    code = "23505" ∧ ¬ ((rows.map Row.id).Nodup ∧ (rows.map Row.displayName).Nodup) := by
  rw [ofRows, dif_pos hchecked] at h
  split_ifs at h with hunique
  cases h
  exact ⟨rfl, hunique⟩

/-- A new row is accepted, or one with its id or its name is there. -/
theorem insert_cases (t : Table) {row : Row} (hrow : row.passes = true) :
    (∃ t', ofRows (t.rows ++ [row]) = .ok t' ∧ (∀ r ∈ t.rows, r.id ≠ row.id) ∧
        (∀ r ∈ t.rows, r.displayName ≠ row.displayName) ∧
          t'.catalog = Function.update t.catalog row.id (machineFromRow row)) ∨
      (ofRows (t.rows ++ [row]) = .error "23505" ∧
        ∃ r ∈ t.rows, r.id = row.id ∨ r.displayName = row.displayName) := by
  have hchecked : ∀ r ∈ t.rows ++ [row], r.passes = true := by
    intro r hr
    rcases List.mem_append.mp hr with hold | hnew
    · exact t.checked r hold
    · rwa [List.mem_singleton.mp hnew]
  cases hrows : ofRows (t.rows ++ [row]) with
  | ok t' =>
      have heq := ofRows_eq_ok hrows
      have hids := t'.ids
      have hnames := t'.names
      rw [heq, List.map_append, List.nodup_append] at hids hnames
      have hid : ∀ r ∈ t.rows, r.id ≠ row.id := fun r hr =>
        hids.2.2 _ (List.mem_map_of_mem hr) _ (List.mem_singleton_self _)
      have hname : ∀ r ∈ t.rows, r.displayName ≠ row.displayName := fun r hr =>
        hnames.2.2 _ (List.mem_map_of_mem hr) _ (List.mem_singleton_self _)
      refine Or.inl ⟨t', rfl, hid, hname, ?_⟩
      rw [Table.catalog, heq, catalogOf_append hid]
      rfl
  | error code =>
      obtain ⟨rfl, hnot⟩ := ofRows_eq_error hchecked hrows
      refine Or.inr ⟨rfl, ?_⟩
      by_contra hnone
      have hfree : ∀ r ∈ t.rows, r.id ≠ row.id ∧ r.displayName ≠ row.displayName := by
        intro r hr
        exact ⟨fun h => hnone ⟨r, hr, Or.inl h⟩, fun h => hnone ⟨r, hr, Or.inr h⟩⟩
      apply hnot
      simp only [List.map_append, List.nodup_append, List.map_cons, List.map_nil]
      refine ⟨⟨t.ids, List.nodup_singleton _, ?_⟩, t.names, List.nodup_singleton _, ?_⟩
      · intro a ha b hb
        obtain ⟨r, hr, rfl⟩ := List.mem_map.mp ha
        rw [List.mem_singleton.mp hb]
        exact (hfree r hr).1
      · intro a ha b hb
        obtain ⟨r, hr, rfl⟩ := List.mem_map.mp ha
        rw [List.mem_singleton.mp hb]
        exact (hfree r hr).2

/-- A changed row is accepted, or another one has the name that it would have, or there is none. -/
theorem change_cases (t : Table) {id : Uuid} {f : Row → Row} (hf : ∀ r, (f r).id = r.id)
    (hpasses : ∀ r ∈ t.rows, r.id = id → (f r).passes = true) :
    (t.catalog id = none ∧ ∃ t', t.change id f = .ok (t', none) ∧ t'.catalog = t.catalog) ∨
      ∃ row ∈ t.rows, row.id = id ∧
        ((∃ t', t.change id f = .ok (t', some (f row)) ∧
            (∀ r ∈ t.rows, r.id ≠ id → r.displayName ≠ (f row).displayName) ∧
              t'.catalog = Function.update t.catalog id (machineFromRow (f row))) ∨
          (t.change id f = .error "23505" ∧
            ∃ r ∈ t.rows, r.id ≠ id ∧ r.displayName = (f row).displayName)) := by
  have hmap (r : Row) : (if r.id = id then f r else r).id = r.id := by
    by_cases hr : r.id = id
    · rw [if_pos hr, hf]
    · rw [if_neg hr]
  have hids : ((t.rows.map fun r => if r.id = id then f r else r).map Row.id).Nodup := by
    rw [List.map_map]
    have hsame : (Row.id ∘ fun r => if r.id = id then f r else r) = Row.id := funext hmap
    rw [hsame]
    exact t.ids
  have hchecked : ∀ r ∈ t.rows.map fun r => if r.id = id then f r else r, r.passes = true := by
    intro r' hr'
    obtain ⟨r, hr, rfl⟩ := List.mem_map.mp hr'
    by_cases hid : r.id = id
    · rw [if_pos hid]
      exact hpasses r hr hid
    · rw [if_neg hid]
      exact t.checked r hr
  cases hfind : t.rows.find? (·.id == id) with
  | none =>
      have hnone : ∀ r ∈ t.rows, r.id ≠ id := fun r hr => by
        simpa using List.find?_eq_none.mp hfind r hr
      have hsame : (t.rows.map fun r => if r.id = id then f r else r) = t.rows := by
        conv_rhs => rw [← List.map_id t.rows]
        exact List.map_congr_left fun r hr => if_neg (hnone r hr)
      refine Or.inl ⟨t.catalog_eq_none.mpr hnone, t, ?_, rfl⟩
      rw [change, hsame, ofRows_rows, hfind]
      rfl
  | some row =>
      obtain ⟨hmem, hid⟩ := t.find_eq_some.mp hfind
      have hin {r : Row} (hr : r ∈ t.rows) : (if r.id = id then f r else r) ∈
          t.rows.map fun r => if r.id = id then f r else r := List.mem_map_of_mem hr
      refine Or.inr ⟨row, hmem, hid, ?_⟩
      cases hrows : ofRows (t.rows.map fun r => if r.id = id then f r else r) with
      | ok t' =>
          have heq := ofRows_eq_ok hrows
          refine Or.inl ⟨t', by rw [change, hrows, hfind]; rfl, ?_, ?_⟩
          · intro r hr hother hname
            have hfirst : r ∈ t'.rows := by simpa [heq, if_neg hother] using hin hr
            have hsecond : f row ∈ t'.rows := by simpa [heq, if_pos hid] using hin hmem
            have hsame := List.inj_on_of_nodup_map t'.names hfirst hsecond hname
            rw [hsame, hf, hid] at hother
            exact hother rfl
          · rw [Table.catalog, heq, catalogOf_change hf hfind]
            rfl
      | error code =>
          obtain ⟨rfl, hnot⟩ := ofRows_eq_error hchecked hrows
          refine Or.inr ⟨by rw [change, hrows]; rfl, ?_⟩
          by_contra hnone
          have hfree : ∀ r ∈ t.rows, r.id ≠ id → r.displayName ≠ (f row).displayName :=
            fun r hr hother hname => hnone ⟨r, hr, hother, hname⟩
          have hnodup : t.rows.Nodup := t.ids.of_map _
          refine hnot ⟨hids, ?_⟩
          rw [List.map_map]
          -- Two rows with one name are the same: the changed one has a name of its own.
          apply hnodup.map_on
          intro a ha b hb hnames
          have hrow {r : Row} (hr : r ∈ t.rows) (hrid : r.id = id) : r = row :=
            List.inj_on_of_nodup_map t.ids hr hmem (hrid.trans hid.symm)
          simp only [Function.comp_apply] at hnames
          by_cases ha' : a.id = id
          · by_cases hb' : b.id = id
            · rw [hrow ha ha', hrow hb hb']
            · rw [if_pos ha', if_neg hb', hrow ha ha'] at hnames
              exact absurd hnames.symm (hfree b hb hb')
          · by_cases hb' : b.id = id
            · rw [if_neg ha', if_pos hb', hrow hb hb'] at hnames
              exact absurd hnames (hfree a ha ha')
            · rw [if_neg ha', if_neg hb'] at hnames
              exact List.inj_on_of_nodup_map t.names ha hb hnames

end Table

/-- The statement of a creation. -/
def createStatement (id : Uuid) (input : CreateMachine) : Statement :=
  ⟨createSql, [.uuid id, .text input.displayName, .text input.sshHost, .int4 input.sshPort.toNat,
    .text input.sshUsername, .nullableText input.pinnedHostPublicKey]⟩

/-- The statement of a change. -/
def updateStatement (id : Uuid) (input : UpdateMachine) : Statement :=
  ⟨updateSql, [.uuid id, .text input.displayName, .text input.sshHost, .int4 input.sshPort.toNat,
    .text input.sshUsername]⟩

/-- The statement of another pin. -/
def keyStatement (id : Uuid) (hostPublicKey : Option String) : Statement :=
  ⟨setHostKeySql, [.uuid id, .nullableText hostPublicKey]⟩

/-- The statement of a read. -/
def getStatement (id : Uuid) : Statement := ⟨getSql, [.uuid id]⟩

/-- The statement of a deletion. -/
def deleteStatement (id : Uuid) : Statement := ⟨deleteSql, [.uuid id]⟩

/-- The statement of a call that returns a row. -/
def Call.fetched (call : Call) : Option Statement :=
  match call.request with
  | .create input => some (createStatement call.newId input)
  | .get id => some (getStatement id)
  | .update id input => some (updateStatement id input)
  | .replaceHostKey id key => some (keyStatement id (some key))
  | .clearHostKey id => some (keyStatement id none)
  | .list _ | .delete _ => none

section Carried

variable {decode : String → Option Text.Bytes} (order : Machine → Machine → Bool)

/-- A statement that was carried out did what its call is for, or had no row to do it to, or there
was a conflict. -/
inductive Carried (t : Table) (call : Call) (now : Int) :
    Option (Except String (Table × Option Row)) → Prop
  | row {t' : Table} {row : Row} {machine : Machine} (hmachine : machineFromRow row = some machine)
      (hdone : Done order t.catalog call now [machine] t'.catalog) :
      Carried t call now (some (.ok (t', some row)))
  | noRow {t' : Table} {id : Uuid} (hsame : t'.catalog = t.catalog)
      (htarget : call.request.target = some id) (hnone : t.catalog id = none) :
      Carried t call now (some (.ok (t', none)))
  | conflict (h : Conflicts t.catalog call) : Carried t call now (some (.error "23505"))

/-- What the repository checked is refused by no check of the table. -/
theorem Carried.passed {t : Table} {call : Call} {now : Int}
    {r : Option (Except String (Table × Option Row))} (h : Carried order t call now r) :
    r ≠ some (.error "23514") := by
  intro heq
  cases h with
  | row _ _ => cases heq
  | noRow _ _ _ => cases heq
  | conflict _ => simp at heq

/-- The machine of a row with a port. -/
theorem machineFromRow_of_port {row : Row} {port : UInt16} (h : row.sshPort = port.toNat) :
    machineFromRow row = some ⟨row.id, row.displayName, row.sshHost, port, row.sshUsername,
      row.pinnedHostPublicKey, row.createdAt, row.updatedAt⟩ := by
  have hlt := port.toNat_lt
  rw [machineFromRow, if_pos (by omega), h, Int.toNat_natCast, UInt16.ofNat_toNat]

/-- A request that is validated passed. -/
theorem validated_eq_ok {r : Except ValidationError Unit} (h : validated r = .ok ()) :
    r = .ok () := by
  cases r with
  | ok u => rfl
  | error e => cases h

/-- A creation that is checked has valid fields. -/
theorem check_create {input : CreateMachine} (h : (Request.create input).check decode = .ok ()) :
    validateMachineFields input.displayName input.sshHost input.sshPort input.sshUsername =
        .ok () ∧
      ∀ key ∈ input.pinnedHostPublicKey, validateHostPublicKey decode key = .ok () := by
  rw [Request.check] at h
  cases hfields : validated (validateMachineFields input.displayName input.sshHost input.sshPort
      input.sshUsername) with
  | error e =>
      rw [hfields] at h
      cases h
  | ok u =>
      rw [hfields] at h
      refine ⟨validated_eq_ok hfields, fun key hkey => ?_⟩
      rw [Option.mem_def] at hkey
      rw [hkey] at h
      exact validated_eq_ok h

/-- And a pin that passes, if it has one. -/
theorem pin_of_check {input : CreateMachine} (h : (Request.create input).check decode = .ok ()) :
    input.pinnedHostPublicKey.all (between 1 256) = true := by
  cases hpin : input.pinnedHostPublicKey with
  | none => rfl
  | some key => exact between_of_validateHostPublicKey ((check_create h).2 key hpin)

/-- The statement of a creation does what the request is for. -/
theorem create_carried (t : Table) (now : Int) {call : Call} {input : CreateMachine}
    (hrequest : call.request = .create input)
    (h : (Request.create input).check decode = .ok ()) :
    Carried order t call now (t.fetch now (createStatement call.newId input)) := by
  let row : Row := ⟨call.newId, input.displayName, input.sshHost, input.sshPort.toNat,
    input.sshUsername, input.pinnedHostPublicKey, now, now⟩
  have hfetch : t.fetch now (createStatement call.newId input) =
      some ((Table.ofRows (t.rows ++ [row])).map fun t' => (t', some row)) := by
    simp only [Table.fetch, createStatement, ↓reduceIte, row]
  have hpasses : row.passes = true :=
    Row.passes_of_fields ⟨rfl, rfl, rfl, rfl⟩ (check_create h).1 (pin_of_check h)
  have hmachine : machineFromRow row = some (created call input now) := machineFromRow_of_port rfl
  rw [hfetch]
  rcases t.insert_cases hpasses with ⟨t', hrows, hid, hname, hcatalog⟩ | ⟨hrows, r, hr, hsame⟩
  · rw [hrows]
    refine .row hmachine ?_
    rw [Done, hrequest]
    refine ⟨t.catalog_eq_none.mpr hid, ?_, rfl, ?_⟩
    · rw [t.takenBy_iff]
      rintro ⟨r, hr, -, hnamed⟩
      exact hname r hr hnamed
    · rw [hcatalog, hmachine]
      rfl
  · rw [hrows]
    refine .conflict ?_
    rw [Conflicts, hrequest]
    by_cases hid : r.id = call.newId
    · refine Or.inr fun hnone => ?_
      exact t.catalog_eq_none.mp hnone r hr hid
    · refine Or.inl (t.takenBy_iff.mpr ⟨r, hr, hid, ?_⟩)
      exact hsame.resolve_left hid

/-- The statement of a read returns the row. -/
theorem Table.fetch_get (t : Table) (now : Int) (id : Uuid) :
    t.fetch now (getStatement id) = some (.ok (t, t.rows.find? (·.id == id))) := by
  simp only [Table.fetch, getStatement, ↓reduceIte]

/-- The statement of a deletion counts its rows. -/
theorem Table.execute_delete (t : Table) (id : Uuid) :
    t.execute (deleteStatement id) =
      some (t.without id, (t.rows.filter (·.id == id)).length) := by
  simp only [Table.execute, deleteStatement, ↓reduceIte]

/-- The statement of a read does what the request is for. -/
theorem get_carried (t : Table) (now : Int) {call : Call} {id : Uuid}
    (hrequest : call.request = .get id) :
    Carried order t call now (t.fetch now (getStatement id)) := by
  rw [t.fetch_get]
  cases hfind : t.rows.find? (·.id == id) with
  | none =>
      refine .noRow rfl (by rw [hrequest]; rfl) (t.catalog_eq_none.mpr fun row hrow => ?_)
      simpa using List.find?_eq_none.mp hfind row hrow
  | some row =>
      obtain ⟨hmem, hid⟩ := t.find_eq_some.mp hfind
      obtain ⟨machine, hmachine⟩ := t.exists_machine hmem
      refine .row hmachine ?_
      rw [Done, hrequest]
      exact ⟨machine, t.catalog_eq_some.mpr ⟨row, hmem, hid, hmachine⟩, rfl, rfl⟩

/-- A statement that changes the row of an id. -/
theorem change_carried {t : Table} {call : Call} {id : Uuid} {now : Int} {f : Row → Row}
    {g : Machine → Machine} (hf : ∀ r, (f r).id = r.id)
    (hpasses : ∀ r ∈ t.rows, r.id = id → (f r).passes = true)
    (hmachine : ∀ r machine, machineFromRow r = some machine →
      machineFromRow (f r) = some (g machine))
    (htarget : call.request.target = some id)
    (hdone : ∀ machine c', t.catalog id = some machine →
      ¬ t.catalog.TakenBy (g machine).displayName id → c' = t.catalog.put (g machine) →
        Done order t.catalog call now [g machine] c')
    (hconflicts : ∀ machine, t.catalog id = some machine →
      t.catalog.TakenBy (g machine).displayName id → Conflicts t.catalog call) :
    Carried order t call now (some (t.change id f)) := by
  rcases t.change_cases hf hpasses with ⟨hnone, t', hchange, hcatalog⟩ | ⟨row, hmem, hid, hrow⟩
  · rw [hchange]
    exact .noRow hcatalog htarget hnone
  · obtain ⟨machine, hfound⟩ := t.exists_machine hmem
    have hcatalog := t.catalog_eq_some.mpr ⟨row, hmem, hid, hfound⟩
    have hnew := hmachine row machine hfound
    have hname := machineFromRow_name hnew
    rcases hrow with ⟨t', hchange, hfree, hcatalog'⟩ | ⟨hchange, r, hr, hother, hnamed⟩
    · rw [hchange]
      refine .row hnew (hdone machine _ hcatalog ?_ ?_)
      · rw [t.takenBy_iff]
        rintro ⟨r, hr, hother, hnamed⟩
        exact hfree r hr hother (hnamed.trans hname)
      · rw [hcatalog', hnew, Catalog.put, machineFromRow_id hnew, hf, hid]
    · rw [hchange]
      refine .conflict (hconflicts machine hcatalog (t.takenBy_iff.mpr ⟨r, hr, hother, ?_⟩))
      exact hnamed.trans hname.symm

/-- So does that of a change. -/
theorem update_carried (t : Table) (now : Int) {call : Call} {id : Uuid} {input : UpdateMachine}
    (hrequest : call.request = .update id input)
    (h : (Request.update id input).check decode = .ok ()) :
    Carried order t call now (t.fetch now (updateStatement id input)) := by
  have hfetch : t.fetch now (updateStatement id input) = some (t.change id fun row =>
      { row with
        displayName := input.displayName
        sshHost := input.sshHost
        sshPort := input.sshPort.toNat
        sshUsername := input.sshUsername
        updatedAt := now }) := by
    simp only [Table.fetch, updateStatement, ↓reduceIte]
  rw [hfetch]
  apply change_carried order (g := fun machine => machine.updated input now)
  · exact fun _ => rfl
  · intro r hr _
    have hpin := Row.pin_of_passes (t.checked r hr)
    exact Row.passes_of_fields ⟨rfl, rfl, rfl, rfl⟩ (validated_eq_ok h) hpin
  · intro r machine hr
    rw [@machineFromRow_of_port _ input.sshPort rfl]
    rw [machineFromRow] at hr
    split_ifs at hr
    cases hr
    rfl
  · rw [hrequest]
    rfl
  · intro machine c' hfound hfree hc
    rw [Done, hrequest]
    exact ⟨machine, hfound, hfree, rfl, hc⟩
  · intro machine _ htaken
    rw [Conflicts, hrequest]
    exact htaken

/-- So does that of another pin. -/
theorem key_carried (t : Table) (now : Int) {call : Call} {id : Uuid} {key : Option String}
    (htarget : call.request.target = some id) (hpin : key.all (between 1 256) = true)
    (hdone : ∀ machine, t.catalog id = some machine →
      Done order t.catalog call now [machine.pinned key now]
        (t.catalog.put (machine.pinned key now))) :
    Carried order t call now (t.fetch now (keyStatement id key)) := by
  have hfetch : t.fetch now (keyStatement id key) = some (t.change id fun row =>
      { row with pinnedHostPublicKey := key, updatedAt := now }) := by
    simp only [Table.fetch, keyStatement, ↓reduceIte]
  rw [hfetch]
  apply change_carried order (g := fun machine => machine.pinned key now)
  · exact fun _ => rfl
  · intro r hr _
    exact Row.passes_of_pin (t.checked r hr) hpin
  · intro r machine hr
    rw [machineFromRow] at hr ⊢
    split_ifs at hr ⊢
    cases hr
    rfl
  · exact htarget
  · rintro machine c' hfound - rfl
    exact hdone machine hfound
  · -- The name stays, and no other row has it.
    intro machine hfound htaken
    obtain ⟨row, hmem, hid, hmachine⟩ := t.catalog_eq_some.mp hfound
    obtain ⟨r, hr, hother, hnamed⟩ := t.takenBy_iff.mp htaken
    have hname : machine.displayName = row.displayName := machineFromRow_name hmachine
    have hname : r.displayName = row.displayName := hnamed.trans hname
    have hsame := List.inj_on_of_nodup_map t.names hr hmem hname
    exact absurd (hsame ▸ hid) hother

/-- **Every statement that returns a row does what its call is for.** -/
theorem fetch_carried {t : Table} {call : Call} {statement : Statement} (now : Int)
    (h : call.request.check decode = .ok ()) (hstatement : call.fetched = some statement) :
    Carried order t call now (t.fetch now statement) := by
  cases hrequest : call.request with
  | create input =>
      rw [hrequest] at h
      simp only [Call.fetched, hrequest, Option.some.injEq] at hstatement
      subst hstatement
      exact create_carried order t now hrequest h
  | get id =>
      simp only [Call.fetched, hrequest, Option.some.injEq] at hstatement
      subst hstatement
      exact get_carried order t now hrequest
  | list limit =>
      rw [Call.fetched, hrequest] at hstatement
      cases hstatement
  | update id input =>
      rw [hrequest] at h
      simp only [Call.fetched, hrequest, Option.some.injEq] at hstatement
      subst hstatement
      exact update_carried order t now hrequest h
  | replaceHostKey id key =>
      rw [hrequest] at h
      simp only [Call.fetched, hrequest, Option.some.injEq] at hstatement
      subst hstatement
      have htarget : call.request.target = some id := by
        rw [hrequest]
        rfl
      have hpin : (some key).all (between 1 256) = true :=
        between_of_validateHostPublicKey (validated_eq_ok h)
      refine key_carried order t now htarget hpin fun machine hfound => ?_
      rw [Done, hrequest]
      exact ⟨machine, hfound, rfl, rfl⟩
  | clearHostKey id =>
      simp only [Call.fetched, hrequest, Option.some.injEq] at hstatement
      subst hstatement
      have htarget : call.request.target = some id := by
        rw [hrequest]
        rfl
      refine key_carried order t now htarget rfl fun machine hfound => ?_
      rw [Done, hrequest]
      exact ⟨machine, hfound, rfl, rfl⟩
  | delete id =>
      rw [Call.fetched, hrequest] at hstatement
      cases hstatement

/-- The same of the statement that deletes. -/
theorem delete_carried {t : Table} {call : Call} {id : Uuid} (now : Int)
    (hrequest : call.request = .delete id) :
    ∃ rows, t.execute (deleteStatement id) = some (t.without id, rows) ∧
      if rows = 0 then (t.without id).catalog = t.catalog ∧ t.catalog id = none
      else Done order t.catalog call now [] (t.without id).catalog := by
  refine ⟨_, t.execute_delete id, ?_⟩
  split_ifs with hrows
  · rw [List.length_eq_zero_iff, List.filter_eq_nil_iff] at hrows
    have hnone : t.catalog id = none := by
      apply t.catalog_eq_none.mpr
      intro row hrow
      simpa using hrows row hrow
    have hsame := Function.update_eq_self id t.catalog
    rw [hnone] at hsame
    exact ⟨(t.catalog_without id).trans hsame, hnone⟩
  · obtain ⟨row, hrow⟩ := List.exists_mem_of_length_pos (Nat.pos_of_ne_zero hrows)
    obtain ⟨hmem, hid⟩ := List.mem_filter.mp hrow
    obtain ⟨machine, hmachine⟩ := t.exists_machine hmem
    rw [Done, hrequest]
    have hid : row.id = id := by simpa using hid
    exact ⟨machine, t.catalog_eq_some.mpr ⟨row, hmem, hid, hmachine⟩, rfl, t.catalog_without id⟩

end Carried

namespace Collation

variable (collation : Collation)

/-- The order of a list is transitive. -/
theorem order_trans (a b c : String × Uuid) (hab : collation.order a b = true)
    (hbc : collation.order b c = true) : collation.order a c = true := by
  simp only [order, Bool.and_eq_true, Bool.or_eq_true, Bool.not_eq_true', decide_eq_true_eq,
    BitVec.le_def] at hab hbc ⊢
  refine ⟨collation.trans _ _ _ hab.1 hbc.1, ?_⟩
  cases hca : collation.le c.1 a.1 with
  | false => exact Or.inl rfl
  | true =>
      have hba := collation.trans _ _ _ hbc.1 hca
      have hcb := collation.trans _ _ _ hca hab.1
      have hfirst := hab.2.resolve_left (by simp [hba])
      have hsecond := hbc.2.resolve_left (by simp [hcb])
      exact Or.inr (le_trans hfirst hsecond)

/-- And total. -/
theorem order_total (a b : String × Uuid) :
    (collation.order a b || collation.order b a) = true := by
  have htotal := collation.total a.1 b.1
  simp only [order, Bool.or_eq_true, Bool.and_eq_true, Bool.not_eq_true', decide_eq_true_eq,
    BitVec.le_def] at htotal ⊢
  rcases Nat.le_total a.2.toNat b.2.toNat with hle | hle
  · cases hab : collation.le a.1 b.1 with
    | true => exact Or.inl ⟨rfl, Or.inr hle⟩
    | false => exact Or.inr ⟨htotal.resolve_left (by simp [hab]), Or.inl rfl⟩
  · cases hba : collation.le b.1 a.1 with
    | true => exact Or.inr ⟨rfl, Or.inr hle⟩
    | false => exact Or.inl ⟨htotal.resolve_right (by simp [hba]), Or.inl rfl⟩

/-- The order of machines. -/
def machines (a b : Machine) : Bool := collation.order a.key b.key

end Collation

/-- The machines are those of the rows. -/
def Reads (rows : List Row) (machines : List Machine) : Prop :=
  List.Forall₂ (fun row machine => machineFromRow row = some machine) rows machines

/-- A machine that is read is one of the rows. -/
theorem Reads.row_of_machine {rows : List Row} {machines : List Machine} (h : Reads rows machines)
    {machine : Machine} (hm : machine ∈ machines) :
    ∃ row ∈ rows, machineFromRow row = some machine :=
  Interaction.exists_left_of_mem (R := fun row machine => machineFromRow row = some machine) h hm

/-- A row is one of the machines. -/
theorem Reads.machine_of_row {rows : List Row} {machines : List Machine} (h : Reads rows machines)
    {row : Row} (hr : row ∈ rows) : ∃ machine ∈ machines, machineFromRow row = some machine :=
  Interaction.exists_left_of_mem (R := fun machine row => machineFromRow row = some machine)
    (List.Forall₂.flip h) hr

/-- In the same order. -/
theorem Reads.keys {rows : List Row} {machines : List Machine} (h : Reads rows machines) :
    machines.map Machine.key = rows.map Row.key := by
  induction h with
  | nil => rfl
  | cons hmachine _ ih => rw [List.map_cons, List.map_cons, ih, machineFromRow_key hmachine]

section List

variable (collation : Collation) (t : Table)

/-- A list is ordered. -/
theorem Table.list_pairwise :
    (t.rows.mergeSort fun a b => collation.order a.key b.key).Pairwise
      fun a b => collation.order a.key b.key = true :=
  List.pairwise_mergeSort (fun a b c => collation.order_trans a.key b.key c.key)
    (fun a b => collation.order_total a.key b.key) t.rows

/-- Its rows are rows of the table. -/
theorem Table.mem_of_mem_list {limit : Nat} {row : Row} (h : row ∈ t.list collation limit) :
    row ∈ t.rows :=
  List.mem_mergeSort.mp (List.mem_of_mem_take h)

/-- **A list is the first machines of all, in their order.** -/
theorem Table.list_lists {limit : Nat} {machines : List Machine}
    (h : Reads (t.list collation limit) machines) :
    t.catalog.Lists collation.machines limit machines := by
  have hlength : (t.list collation limit).length = machines.length := h.length_eq
  have hfrom : ∀ m ∈ machines, ∃ row ∈ t.list collation limit, machineFromRow row = some m :=
    fun m hm => h.row_of_machine hm
  have hsplit := List.take_append_drop limit
    (t.rows.mergeSort fun a b => collation.order a.key b.key)
  have hpairwise := t.list_pairwise collation
  rw [← hsplit, List.pairwise_append] at hpairwise
  obtain ⟨hfirst, -, hcross⟩ := hpairwise
  -- A row that is not among the first ones is behind them.
  have hrest : ∀ id m', t.catalog id = some m' → m' ∉ machines → ∃ row ∈ (t.rows.mergeSort
      fun a b => collation.order a.key b.key).drop limit, machineFromRow row = some m' := by
    intro id m' hfound hnot
    obtain ⟨row, hmem, -, hmachine⟩ := t.catalog_eq_some.mp hfound
    have hsorted : row ∈ t.rows.mergeSort fun a b => collation.order a.key b.key :=
      List.mem_mergeSort.mpr hmem
    rw [← hsplit] at hsorted
    rcases List.mem_append.mp hsorted with hlisted | hdropped
    · obtain ⟨machine, hmachines, hsame⟩ := h.machine_of_row hlisted
      rw [hmachine] at hsame
      cases hsame
      exact absurd hmachines hnot
    · exact ⟨row, hdropped, hmachine⟩
  refine ⟨?_, ?_, ?_, ?_, ?_, ?_⟩
  · have hkeys : (machines.map Machine.key).Pairwise fun a b => collation.order a b = true := by
      rw [h.keys, List.pairwise_map]
      exact hfirst
    exact List.pairwise_map.mp hkeys
  · have hids : machines.map Machine.id = (t.list collation limit).map Row.id := by
      have hkeys := congrArg (List.map Prod.snd) h.keys
      simpa [Function.comp_def, Machine.key, Row.key] using hkeys
    rw [hids]
    have hperm := List.mergeSort_perm t.rows fun a b => collation.order a.key b.key
    have hnodup := (hperm.map Row.id).nodup_iff.mpr t.ids
    exact hnodup.sublist ((List.take_sublist limit _).map Row.id)
  · intro m hm
    obtain ⟨row, hrow, hmachine⟩ := hfrom m hm
    rw [machineFromRow_id hmachine]
    exact t.catalog_eq_some.mpr ⟨row, t.mem_of_mem_list collation hrow, rfl, hmachine⟩
  · rw [← hlength, Table.list, List.length_take]
    exact Nat.min_le_left _ _
  · intro hshort id m hfound
    by_contra hnot
    obtain ⟨row, hrow, -⟩ := hrest id m hfound hnot
    have hpos := List.length_pos_of_mem hrow
    rw [List.length_drop] at hpos
    rw [← hlength, Table.list, List.length_take] at hshort
    omega
  · intro m hm id m' hfound hnot
    obtain ⟨row, hrow, hmachine⟩ := hfrom m hm
    obtain ⟨row', hrow', hmachine'⟩ := hrest id m' hfound hnot
    rw [Collation.machines, machineFromRow_key hmachine, machineFromRow_key hmachine']
    exact hcross row hrow row' hrow'

end List

end Inventory
