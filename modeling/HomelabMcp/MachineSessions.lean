import HomelabMcp.Linearization
import HomelabMcp.MachineTable

/-!
# Sessions on the inventory

Any number of requests to the repository run at once against one table.  A statement may get lost
with its connection: its caller is told so, and the database carries it out at some later time or
never.  A request that is dropped while its statement is under way is one whose answer is lost, and
one that is dropped before is one that does not go on.

* `inventory_linearizable`: in every interleaving the requests take effect one after another on
  the catalogue, each at most once, with the outcome that its caller gets; the order only grows;
* `stored_valid`: from the empty table on, every machine of the catalogue passes the checks of the
  repository, and no statement violates the constraints on single rows.
-/

namespace Inventory

open Interaction ProcessPool Linearization

/-- The statement of `list`. -/
def listSql : String :=
  "SELECT " ++ machineColumns ++ " FROM homelab.machines ORDER BY display_name ASC, id ASC LIMIT $1"

/-- The end of the statement that lists. -/
inductive Listed where
  | rows (machines : List Machine)
  | refused (code : Option String)
  | lost

/-- The operations of a request: those of the repository, and a list. -/
inductive TableOp where
  | repository (op : Op)
  | fetchAll (sql : String) (limit : Int)

/-- What each operation answers. -/
abbrev TableAns : TableOp → Type
  | .repository op => Ans op
  | .fetchAll _ _ => Listed

/-- A request as a program with the machines it answers with. -/
abbrev Served := Fallible TableAns Failure (List Machine)

/-- What the answer to a list comes to. -/
def Listed.outcome : Listed → Except Failure (List Machine)
  | .rows machines => .ok machines
  | .refused code => .error (.of (mapDatabaseError (.database code)))
  | .lost => .error (.of (mapDatabaseError .other))

/-- `list`. -/
def list (limit : UInt16) : Served := do
  answer (validateListLimit limit)
  ensure (← ask (.repository .connect)) (.of (mapDatabaseError .other))
  let listed : Listed ← ask (TableOp.fetchAll listSql limit.toNat)
  answer listed.outcome

/-- A method of the repository, with the machines it answers with. -/
def ofRepository {α : Type} (x : Repository α) (machines : α → List Machine) : Served :=
  ExceptT.mk (x.run.lift TableOp.repository >>= fun r => .done ((r.map machines).mapError .of))

section Program

variable (decode : String → Option Text.Bytes)

/-- What the repository does for a request. -/
def Request.program : Request → Served
  | .create input => ofRepository (Inventory.create decode input) fun machine => [machine]
  | .get id => ofRepository (Inventory.get id) fun machine => [machine]
  | .list limit => Inventory.list limit
  | .update id input => ofRepository (Inventory.update id input) fun machine => [machine]
  | .replaceHostKey id key =>
      ofRepository (Inventory.replaceHostKey decode id key) fun machine => [machine]
  | .clearHostKey id => ofRepository (Inventory.clearHostKey id) fun machine => [machine]
  | .delete id => ofRepository (Inventory.delete id) fun _ => []

end Program

/-- What a request has got so far: an id for a new machine, and the outcome its statement gave. -/
structure Stage where
  newId : Option Uuid
  reply : Option (Except Failure (List Machine))

namespace Stage

/-- A request that has done nothing. -/
def fresh : Stage := ⟨none, none⟩

/-- The id may be the one that was got. -/
def Agrees (stage : Stage) (id : Uuid) : Prop := ∀ known ∈ stage.newId, known = id

end Stage

/-- The error of a request whose statement returned no row. -/
def Request.noRow : Request → RepositoryError
  | .create _ => mapDatabaseError .rowNotFound
  | _ => .notFound

/-- What the answer to a statement with a row comes to. -/
def Request.fetchedOutcome (request : Request) : Fetched → Except Failure (List Machine)
  | .row machine => .ok [machine]
  | .noRow => .error (.of request.noRow)
  | .refused code => .error (.of (mapDatabaseError (.database code)))
  | .lost => .error (.of (mapDatabaseError .other))

/-- What the answer to a statement with a count comes to. -/
def Executed.outcome : Executed → Except Failure (List Machine)
  | .affected rows => if rows = 0 then .error (.of .notFound) else .ok []
  | .refused code => .error (.of (mapDatabaseError (.database code)))
  | .lost => .error (.of (mapDatabaseError .other))

section Watch

variable (decode : String → Option Text.Bytes)

/-- The operations of a request: one statement, the one it is for, once its input was checked. -/
def Request.may (request : Request) (stage : Stage) (op : TableOp) : Prop :=
  stage.reply = none ∧ request.check decode = .ok () ∧
    match op with
    | .repository .newUuid | .repository .connect => True
    | .repository (.fetch statement) =>
        ∀ id, stage.Agrees id → (Call.mk request id).fetched = some statement
    | .repository (.execute statement) =>
        ∃ id, request = .delete id ∧ statement = deleteStatement id
    | .fetchAll sql limit => ∃ most, request = .list most ∧ sql = listSql ∧ limit = most.toNat

/-- The stage after an operation. -/
def Request.next (request : Request) (stage : Stage) : (op : TableOp) → TableAns op → Stage
  | .repository .newUuid, id => { stage with newId := some id }
  | .repository .connect, _ => stage
  | .repository (.fetch _), fetched => { stage with reply := some (request.fetchedOutcome fetched) }
  | .repository (.execute _), executed => { stage with reply := some executed.outcome }
  | .fetchAll _ _, listed => { stage with reply := some listed.outcome }

/-- The stages of a request. -/
def watch (request : Request) : Monitor TableAns Stage where
  may := request.may decode
  next := request.next

/-- The same for a method of the repository. -/
def watchRepository (request : Request) : Monitor Ans Stage where
  may stage op := request.may decode stage (.repository op)
  next stage op := request.next stage (.repository op)

/-- The outcome is the one its statement gave; where none was sent, the input was refused or there
was no connection. -/
def Request.Ended (request : Request) (stage : Stage) (outcome : Except Failure (List Machine)) :
    Prop :=
  match stage.reply with
  | some reply => outcome = reply
  | none => outcome = .error (.of .database) ∨ ∃ e, outcome = .error e ∧
      request.check decode = .error e

end Watch

open Monitor (wp_run_answer_bind wp_run_ask_bind wp_run_ensure_bind wp_run_bind)

section Spec

variable {decode : String → Option Text.Bytes} {request : Request}

/-- What a method of the repository ends with. -/
def Ends {α : Type} (decode : String → Option Text.Bytes) (request : Request)
    (machines : α → List Machine) (stage : Stage) (r : Except RepositoryError α) : Prop :=
  request.Ended decode stage ((r.map machines).mapError .of)

/-- A part of the repository keeps to the stages as a request. -/
theorem ofRepository_spec {α : Type} {x : Repository α} {machines : α → List Machine}
    (h : (watchRepository decode request).wp x.run .fresh (Ends decode request machines)) :
    (watch decode request).wp (ofRepository x machines).run .fresh (request.Ended decode) := by
  have hlift := Monitor.wp_lift (watch decode request) TableOp.repository id
    (fun _ _ h => h) (fun _ _ _ => rfl) h
  refine (Monitor.wp_bind _ _ _ _ _).mpr ((watch decode request).wp_mono hlift ?_)
  rintro stage r ⟨stage', rfl, hends⟩
  exact hends

/-- An error that is mapped leaves the stages. -/
theorem wp_mapErr {α : Type} {x : Fallible Ans SqlxError α} {stage : Stage}
    {Q : Stage → Except RepositoryError α → Prop}
    (h : (watchRepository decode request).wp x.run stage
      fun stage' r => Q stage' (r.mapError mapDatabaseError)) :
    (watchRepository decode request).wp (mapErr mapDatabaseError x).run stage Q :=
  (Monitor.wp_bind _ _ _ _ _).mpr h

/-- A statement for at most one row, which is the one the request is for. -/
theorem fetchOptional_watched {statement : Statement} {stage : Stage}
    (hreply : stage.reply = none) (hcheck : request.check decode = .ok ())
    (hfetched : ∀ id, stage.Agrees id → (Call.mk request id).fetched = some statement) :
    (watchRepository decode request).wp (fetchOptional statement).run stage fun stage' r =>
      (stage' = stage ∧ r = .error .other) ∨ ∃ fetched : Fetched,
        stage'.reply = some (request.fetchedOutcome fetched) ∧
          r = match fetched with
            | .row machine => .ok (some machine)
            | .noRow => .ok none
            | .refused code => .error (.database code)
            | .lost => .error .other := by
  refine ⟨⟨hreply, hcheck, trivial⟩, fun connected => ?_⟩
  cases connected with
  | false => exact Or.inl ⟨rfl, rfl⟩
  | true =>
      refine ⟨⟨hreply, hcheck, hfetched⟩, fun fetched => ?_⟩
      cases fetched with
      | row machine => exact Or.inr ⟨.row machine, rfl, rfl⟩
      | noRow => exact Or.inr ⟨.noRow, rfl, rfl⟩
      | refused code => exact Or.inr ⟨.refused code, rfl, rfl⟩
      | lost => exact Or.inr ⟨.lost, rfl, rfl⟩

/-- A request that was answered ends with what the answer comes to. -/
theorem Ends.of_reply {α : Type} {machines : α → List Machine} {stage : Stage}
    {r : Except RepositoryError α} {reply : Except Failure (List Machine)}
    (hreply : stage.reply = some reply) (h : (r.map machines).mapError .of = reply) :
    Ends decode request machines stage r := by
  simp only [Ends, Request.Ended, hreply]
  exact h

/-- One that was not may end in an error of the database. -/
theorem Ends.of_database {α : Type} {machines : α → List Machine} {stage : Stage}
    (hreply : stage.reply = none) :
    Ends decode request machines stage (.error .database : Except RepositoryError α) := by
  simp only [Ends, Request.Ended, hreply]
  exact Or.inl rfl

/-- The row of a machine that must exist. -/
theorem fetchExisting_watched {statement : Statement} {stage : Stage}
    (hreply : stage.reply = none) (hcheck : request.check decode = .ok ())
    (hfetched : ∀ id, stage.Agrees id → (Call.mk request id).fetched = some statement)
    (hnoRow : request.noRow = .notFound) :
    (watchRepository decode request).wp (fetchExisting statement).run stage
      (Ends decode request fun machine => [machine]) := by
  rw [fetchExisting, wp_run_bind]
  apply wp_mapErr
  apply Monitor.wp_mono _ (fetchOptional_watched hreply hcheck hfetched)
  rintro stage' r (⟨rfl, rfl⟩ | ⟨fetched, hreply', rfl⟩)
  · exact Ends.of_database hreply
  · cases fetched with
    | row machine => exact Ends.of_reply hreply' rfl
    | noRow =>
        apply Ends.of_reply hreply'
        rw [Request.fetchedOutcome, hnoRow]
        rfl
    | refused code => exact Ends.of_reply hreply' rfl
    | lost => exact Ends.of_reply hreply' rfl

/-- A statement that inserts returns its row, or there is an error. -/
theorem fetchOne_watched {statement : Statement} {stage : Stage}
    (hreply : stage.reply = none) (hcheck : request.check decode = .ok ())
    (hfetched : ∀ id, stage.Agrees id → (Call.mk request id).fetched = some statement)
    (hnoRow : request.noRow = .database) :
    (watchRepository decode request).wp (mapErr mapDatabaseError (fetchOne statement)).run stage
      (Ends decode request fun machine => [machine]) := by
  apply wp_mapErr
  rw [fetchOne, wp_run_bind]
  apply Monitor.wp_mono _ (fetchOptional_watched hreply hcheck hfetched)
  rintro stage' r (⟨rfl, rfl⟩ | ⟨fetched, hreply', rfl⟩)
  · exact Ends.of_database hreply
  · cases fetched with
    | row machine => exact Ends.of_reply hreply' rfl
    | noRow =>
        apply Ends.of_reply hreply'
        rw [Request.fetchedOutcome, hnoRow]
        rfl
    | refused code => exact Ends.of_reply hreply' rfl
    | lost => exact Ends.of_reply hreply' rfl

/-- One that is refused ends before anything is sent. -/
theorem Ends.of_check {α : Type} {machines : α → List Machine} {e : ValidationError}
    (hcheck : request.check decode = .error (.of (.validation e))) :
    Ends decode request machines .fresh (.error (.validation e) : Except RepositoryError α) :=
  Or.inr ⟨_, rfl, hcheck⟩

/-- A check that comes first. -/
theorem checked_first {α β : Type} {r : Except ValidationError β} {f : β → Repository α}
    {machines : α → List Machine}
    (herror : ∀ e, r = .error e → request.check decode = .error (.of (.validation e)))
    (hok : ∀ b, r = .ok b → (watchRepository decode request).wp (f b).run .fresh
      (Ends decode request machines)) :
    (watchRepository decode request).wp (answer (r.mapError .validation) >>= f).run .fresh
      (Ends decode request machines) := by
  rw [wp_run_answer_bind]
  cases hr : r with
  | ok b => exact hok b hr
  | error e => exact Ends.of_check (herror e hr)

/-- Creating a machine keeps to the stages. -/
theorem create_watched (input : CreateMachine) :
    (watchRepository decode (.create input)).wp (Inventory.create decode input).run .fresh
      (Ends decode (.create input) fun machine => [machine]) := by
  have hinsert (hcheck : (Request.create input).check decode = .ok ()) :
      (watchRepository decode (.create input)).wp (do
        let id ← ask Op.newUuid
        mapErr mapDatabaseError (fetchOne (createStatement id input)) : Repository Machine).run
          .fresh (Ends decode (.create input) fun machine => [machine]) := by
    refine ⟨⟨rfl, hcheck, trivial⟩, fun id => ?_⟩
    apply fetchOne_watched rfl hcheck
    · intro id' hagrees
      obtain rfl : id = id' := hagrees id rfl
      rfl
    · rfl
  rw [Inventory.create]
  apply checked_first
  · intro e he
    simp only [Request.check, he]
    rfl
  · intro u hu
    cases hpin : input.pinnedHostPublicKey with
    | none =>
        have hcheck : (Request.create input).check decode = .ok () := by
          simp only [Request.check, hu, hpin]
          rfl
        have hrun := hinsert hcheck
        simp only [createStatement, hpin] at hrun
        exact hrun
    | some key =>
        apply checked_first
        · intro e he
          simp only [Request.check, hu, hpin, he]
          rfl
        · intro u' hu'
          have hcheck : (Request.create input).check decode = .ok () := by
            simp only [Request.check, hu, hpin, hu']
            rfl
          have hrun := hinsert hcheck
          simp only [createStatement, hpin] at hrun
          exact hrun

/-- So does setting a key. -/
theorem setHostKey_watched {id : Uuid} {key : Option String}
    (hcheck : request.check decode = .ok ())
    (hfetched : ∀ newId, (Call.mk request newId).fetched = some (keyStatement id key))
    (hnoRow : request.noRow = .notFound) :
    (watchRepository decode request).wp (setHostKey id key).run .fresh
      (Ends decode request fun machine => [machine]) :=
  fetchExisting_watched rfl hcheck (fun newId _ => hfetched newId) hnoRow

/-- A statement that returns a count. -/
theorem execute_watched {id : Uuid} :
    (watchRepository decode (.delete id)).wp (execute (deleteStatement id)).run .fresh
      fun stage r => (stage = .fresh ∧ r = .error .other) ∨ ∃ executed : Executed,
        stage.reply = some executed.outcome ∧
          r = match executed with
            | .affected rows => .ok rows
            | .refused code => .error (.database code)
            | .lost => .error .other := by
  refine ⟨⟨rfl, rfl, trivial⟩, fun connected => ?_⟩
  cases connected with
  | false => exact Or.inl ⟨rfl, rfl⟩
  | true =>
      refine ⟨⟨rfl, rfl, id, rfl, rfl⟩, fun executed => ?_⟩
      cases executed with
      | affected rows => exact Or.inr ⟨.affected rows, rfl, rfl⟩
      | refused code => exact Or.inr ⟨.refused code, rfl, rfl⟩
      | lost => exact Or.inr ⟨.lost, rfl, rfl⟩

/-- So does deleting one. -/
theorem delete_watched (id : Uuid) :
    (watchRepository decode (.delete id)).wp (Inventory.delete id).run .fresh
      (Ends decode (.delete id) fun _ => []) := by
  rw [Inventory.delete, wp_run_bind]
  apply wp_mapErr
  apply Monitor.wp_mono _ execute_watched
  rintro stage r (⟨rfl, rfl⟩ | ⟨executed, hreply, rfl⟩)
  · exact Ends.of_database rfl
  · cases executed with
    | affected rows =>
        by_cases hrows : rows = 0
        · simp only [Except.mapError, if_pos hrows]
          apply Ends.of_reply hreply
          rw [Executed.outcome, if_pos hrows]
          rfl
        · simp only [Except.mapError, if_neg hrows]
          apply Ends.of_reply hreply
          rw [Executed.outcome, if_neg hrows]
          rfl
    | refused code => exact Ends.of_reply hreply rfl
    | lost => exact Ends.of_reply hreply rfl

/-- And so does a list. -/
theorem list_watched (limit : UInt16) :
    (watch decode (.list limit)).wp (Inventory.list limit).run .fresh
      ((Request.list limit).Ended decode) := by
  rw [Inventory.list, wp_run_answer_bind]
  cases hlimit : validateListLimit limit with
  | error e => exact Or.inr ⟨e, rfl, hlimit⟩
  | ok u =>
      refine ⟨⟨rfl, hlimit, trivial⟩, fun connected => ?_⟩
      cases connected with
      | false => exact Or.inl rfl
      | true => exact ⟨⟨rfl, hlimit, limit, rfl, rfl, rfl⟩, fun listed => rfl⟩

/-- **What a request issues**: at most the one statement it is for. -/
theorem program_spec (request : Request) :
    (watch decode request).wp (request.program decode).run .fresh (request.Ended decode) := by
  cases request with
  | create input => exact ofRepository_spec (create_watched input)
  | get id => exact ofRepository_spec (fetchExisting_watched rfl rfl (fun _ _ => rfl) rfl)
  | list limit => exact list_watched limit
  | update id input =>
      apply ofRepository_spec
      rw [Inventory.update]
      apply checked_first
      · intro e he
        simp only [Request.check, he]
        rfl
      · intro u hu
        have hcheck : (Request.update id input).check decode = .ok () := by
          simp only [Request.check, hu]
          rfl
        exact fetchExisting_watched rfl hcheck (fun _ _ => rfl) rfl
  | replaceHostKey id key =>
      apply ofRepository_spec
      rw [Inventory.replaceHostKey]
      apply checked_first
      · intro e he
        simp only [Request.check, he]
        rfl
      · intro u hu
        have hcheck : (Request.replaceHostKey id key).check decode = .ok () := by
          simp only [Request.check, hu]
          rfl
        exact setHostKey_watched hcheck (fun _ => rfl) rfl
  | clearHostKey id => exact ofRepository_spec (setHostKey_watched rfl (fun _ => rfl) rfl)
  | delete id => exact ofRepository_spec (delete_watched id)

end Spec

section Sessions

variable (decode : String → Option Text.Bytes) (collation : Collation)

/-- How the database answers.  It refuses for reasons of its own too, and only says that something
is not unique where it is not. -/
inductive Answers (newId : Uuid) (t : Table) : (op : TableOp) → TableAns op → Table → Prop
  | newUuid : Answers newId t (.repository .newUuid) newId t
  | connect (ok : Bool) : Answers newId t (.repository .connect) ok t
  | row {statement : Statement} {now : Int} {t' : Table} {row : Row} {machine : Machine}
      (h : t.fetch now statement = some (.ok (t', some row)))
      (hmachine : machineFromRow row = some machine) :
      Answers newId t (.repository (.fetch statement)) (.row machine) t'
  | noRow {statement : Statement} {now : Int} {t' : Table}
      (h : t.fetch now statement = some (.ok (t', none))) :
      Answers newId t (.repository (.fetch statement)) .noRow t'
  | violates {statement : Statement} {now : Int} {code : String}
      (h : t.fetch now statement = some (.error code)) :
      Answers newId t (.repository (.fetch statement)) (.refused (some code)) t
  | refused {statement : Statement} {code : Option String} (h : code ≠ some "23505") :
      Answers newId t (.repository (.fetch statement)) (.refused code) t
  | affected {statement : Statement} {t' : Table} {rows : Nat}
      (h : t.execute statement = some (t', rows)) :
      Answers newId t (.repository (.execute statement)) (.affected rows) t'
  | executeRefused {statement : Statement} {code : Option String} (h : code ≠ some "23505") :
      Answers newId t (.repository (.execute statement)) (.refused code) t
  | listed {limit : Int} {machines : List Machine}
      (h : Reads (t.list collation limit.toNat) machines) :
      Answers newId t (.fetchAll listSql limit) (.rows machines) t
  | listRefused {sql : String} {limit : Int} {code : Option String} (h : code ≠ some "23505") :
      Answers newId t (.fetchAll sql limit) (.refused code) t
  | listLost (sql : String) (limit : Int) : Answers newId t (.fetchAll sql limit) .lost t

/-- What a statement that was lost does when the database carries it out after all. -/
inductive Late (t : Table) : Op → Table → Prop
  | fetch {statement : Statement} {now : Int} {t' : Table} {row : Option Row}
      (h : t.fetch now statement = some (.ok (t', row))) : Late t (.fetch statement) t'
  | execute {statement : Statement} {t' : Table} {rows : Nat}
      (h : t.execute statement = some (t', rows)) : Late t (.execute statement) t'

/-- A request that is being served, with the id it will get if it asks for one, and the statement
that was lost and may yet be carried out. -/
structure Client where
  call : Call
  program : Program TableOp TableAns (Except Failure (List Machine))
  stage : Stage
  underway : Option Op

/-- A request that has done nothing yet. -/
def Client.starting (call : Call) : Client :=
  ⟨call, (call.request.program decode).run, .fresh, none⟩

/-- A request comes closer to its end: an operation of it is answered, or its statement is lost with
the connection; and a statement that was lost is carried out. -/
inductive Act (t : Table) : Client → Table → Client → Prop
  | answered {call : Call} {op : TableOp} {next : TableAns op →
      Program TableOp TableAns (Except Failure (List Machine))} {stage : Stage}
      {underway : Option Op} {answer : TableAns op} {t' : Table}
      (h : Answers collation call.newId t op answer t') :
      Act t ⟨call, .call op next, stage, underway⟩ t'
        ⟨call, next answer, call.request.next stage op answer, underway⟩
  | fetchLost {call : Call} {statement : Statement} {next : Fetched →
      Program TableOp TableAns (Except Failure (List Machine))} {stage : Stage}
      {underway : Option Op} :
      Act t ⟨call, .call (.repository (.fetch statement)) next, stage, underway⟩ t
        ⟨call, next .lost, call.request.next stage (.repository (.fetch statement)) Fetched.lost,
          some (.fetch statement)⟩
  | executeLost {call : Call} {statement : Statement} {next : Executed →
      Program TableOp TableAns (Except Failure (List Machine))} {stage : Stage}
      {underway : Option Op} :
      Act t ⟨call, .call (.repository (.execute statement)) next, stage, underway⟩ t
        ⟨call, next .lost, call.request.next stage (.repository (.execute statement)) Executed.lost,
          some (.execute statement)⟩
  | late {call : Call} {program : Program TableOp TableAns (Except Failure (List Machine))}
      {stage : Stage} {op : Op} {t' : Table} (h : Late t op t') :
      Act t ⟨call, program, stage, some op⟩ t' ⟨call, program, stage, none⟩

/-- Clients of one table. -/
def sessions : Behaviour Table Client where
  start client := ∃ call, client = .starting decode call
  act _ := Act collation
  env _ _ := False

/-- The outcome that a request has settled for: none while its statement may yet be carried out. -/
def Client.settled (client : Client) : Option (Except Failure (List Machine)) :=
  match client.underway with
  | none => client.stage.reply
  | some _ => none

/-- What is seen of them: requests and outcomes on the catalogue. -/
def clients : View Catalog Call (Except Failure (List Machine)) Table Client where
  abs := Table.catalog
  request := Client.call
  settled := Client.settled

/-- The statement is the one of the call. -/
def Call.Sends (call : Call) : Op → Prop
  | .fetch statement => call.fetched = some statement
  | .execute statement => ∃ id, call.request = .delete id ∧ statement = deleteStatement id
  | _ => False

/-- What a request keeps: it follows its program, has the id it was to get, and what was lost is its
statement. -/
structure Client.Sound (client : Client) : Prop where
  follows : (watch decode client.call.request).wp client.program client.stage
    (client.call.request.Ended decode)
  newId : client.stage.Agrees client.call.newId
  lost : ∀ op, client.underway = some op →
    client.stage.reply = some (.error (.of .database)) ∧
      client.call.request.check decode = .ok () ∧ client.call.Sends op

variable {decode collation}

/-- Every other code is an error of the database. -/
theorem mapDatabaseError_of_ne {code : Option String} (h : code ≠ some "23505") :
    mapDatabaseError (.database code) = .database := by
  unfold mapDatabaseError
  split
  · next heq =>
      cases heq
      exact absurd rfl h
  · rfl

/-- The outcome of an error of the database says nothing of what was done. -/
theorem Allowed.of_database {c c' : Catalog} {call : Call}
    (hcheck : call.request.check decode = .ok ())
    (h : c' = c ∨ ∃ now machines, Done collation.machines c call now machines c') :
    Allowed decode collation.machines c call (.error (.of .database)) c' :=
  ⟨hcheck, h⟩

/-- A request about a machine is not found without a row. -/
theorem noRow_of_target {request : Request} {id : Uuid} (h : request.target = some id) :
    request.noRow = .notFound := by
  cases request <;> first | rfl | cases h

/-- A statement that returns a row has the effect of its call, whatever its caller learns. -/
theorem fetch_allowed {t t' : Table} {call : Call} {statement : Statement} {fetched : Fetched}
    (hcheck : call.request.check decode = .ok ()) (hfetched : call.fetched = some statement)
    (h : Answers collation call.newId t (.repository (.fetch statement)) fetched t') :
    Allowed decode collation.machines t.catalog call (call.request.fetchedOutcome fetched)
      t'.catalog := by
  cases h with
  | @row _ now _ _ machine h hmachine =>
      have hcarried := fetch_carried collation.machines (t := t) now hcheck hfetched
      rw [h] at hcarried
      cases hcarried with
      | row hmachine' hdone =>
          rw [hmachine] at hmachine'
          cases hmachine'
          exact ⟨hcheck, now, hdone⟩
  | @noRow _ now _ h =>
      have hcarried := fetch_carried collation.machines (t := t) now hcheck hfetched
      rw [h] at hcarried
      cases hcarried with
      | noRow hsame htarget hnone =>
          rw [Request.fetchedOutcome, noRow_of_target htarget]
          exact ⟨hcheck, hsame, _, htarget, hnone⟩
  | @violates _ now _ h =>
      have hcarried := fetch_carried collation.machines (t := t) now hcheck hfetched
      rw [h] at hcarried
      cases hcarried with
      | conflict hconflict => exact ⟨hcheck, rfl, hconflict⟩
  | refused hcode =>
      rw [Request.fetchedOutcome, mapDatabaseError_of_ne hcode]
      exact .of_database hcheck (Or.inl rfl)

/-- What a deletion answers is allowed on the catalogue. -/
theorem execute_allowed {t t' : Table} {call : Call} {id : Uuid} {executed : Executed}
    (hrequest : call.request = .delete id)
    (h : Answers collation call.newId t (.repository (.execute (deleteStatement id))) executed t') :
    Allowed decode collation.machines t.catalog call executed.outcome t'.catalog := by
  have hcheck : call.request.check decode = .ok () := by
    rw [hrequest]
    rfl
  obtain ⟨count, hexecute, hdone⟩ := delete_carried collation.machines (t := t) 0 hrequest
  cases h with
  | @affected _ _ rows h =>
      rw [hexecute] at h
      cases h
      rw [Executed.outcome]
      split_ifs with hcount
      · rw [if_pos hcount] at hdone
        refine ⟨hcheck, hdone.1, id, ?_, hdone.2⟩
        rw [hrequest]
        rfl
      · rw [if_neg hcount] at hdone
        exact ⟨hcheck, 0, hdone⟩
  | executeRefused hcode =>
      rw [Executed.outcome, mapDatabaseError_of_ne hcode]
      exact .of_database hcheck (Or.inl rfl)

/-- A statement that was lost has the effect of its call when it is carried out, or none. -/
theorem late_allowed {t t' : Table} {call : Call} {op : Op}
    (hcheck : call.request.check decode = .ok ()) (hsends : call.Sends op) (h : Late t op t') :
    Allowed decode collation.machines t.catalog call (.error (.of .database)) t'.catalog := by
  apply Allowed.of_database hcheck
  cases h with
  | @fetch _ now _ _ h =>
      have hcarried := fetch_carried collation.machines (t := t) now hcheck hsends
      rw [h] at hcarried
      cases hcarried with
      | row _ hdone => exact Or.inr ⟨now, _, hdone⟩
      | noRow hsame _ _ => exact Or.inl hsame
  | @execute _ _ rows h =>
      obtain ⟨id, hrequest, rfl⟩ := hsends
      obtain ⟨count, hexecute, hdone⟩ := delete_carried collation.machines (t := t) 0 hrequest
      rw [hexecute] at h
      cases h
      by_cases hcount : rows = 0
      · rw [if_pos hcount] at hdone
        exact Or.inl hdone.1
      · rw [if_neg hcount] at hdone
        exact Or.inr ⟨0, _, hdone⟩

/-- So is what a list answers. -/
theorem list_allowed {t t' : Table} {call : Call} {limit : UInt16} {listed : Listed}
    (hrequest : call.request = .list limit) (hcheck : call.request.check decode = .ok ())
    (h : Answers collation call.newId t (.fetchAll listSql limit.toNat) listed t') :
    Allowed decode collation.machines t.catalog call listed.outcome t'.catalog := by
  cases h with
  | listed h =>
      refine ⟨hcheck, 0, ?_⟩
      rw [Done, hrequest]
      exact ⟨t.list_lists collation h, rfl⟩
  | listRefused hcode =>
      rw [Listed.outcome, mapDatabaseError_of_ne hcode]
      exact .of_database hcheck (Or.inl rfl)
  | listLost => exact .of_database hcheck (Or.inl rfl)

/-- A request that still asks has lost nothing. -/
theorem Client.Sound.underway_eq_none {client : Client} (h : client.Sound decode)
    (hreply : client.stage.reply = none) : client.underway = none := by
  cases hunderway : client.underway with
  | none => rfl
  | some op =>
      have hlost := (h.lost op hunderway).1
      rw [hreply] at hlost
      cases hlost

/-- **One step of a request.** -/
theorem act_step {t t' : Table} {client client' : Client} (hsound : client.Sound decode)
    (h : Act collation t client t' client') :
    client'.Sound decode ∧
      clients.Step (Allowed decode collation.machines) t client t' client' := by
  cases h with
  | @answered call op next stage underway answer _ h =>
      obtain ⟨⟨hreply, hcheck, hmay⟩, hnext⟩ := hsound.follows
      obtain rfl : underway = none := hsound.underway_eq_none hreply
      have hfollows := hnext answer
      cases op with
      | repository op =>
          cases op with
          | newUuid =>
              cases h
              refine ⟨⟨hfollows, fun known hknown => ?_, nofun⟩, .silent rfl rfl rfl⟩
              exact (Option.some.inj hknown).symm
          | connect =>
              cases h
              exact ⟨⟨hfollows, hsound.newId, nofun⟩, .silent rfl rfl rfl⟩
          | fetch statement =>
              have hallowed := fetch_allowed hcheck (hmay call.newId hsound.newId) h
              exact ⟨⟨hfollows, hsound.newId, nofun⟩, .effect hallowed rfl hreply rfl⟩
          | execute statement =>
              obtain ⟨id, hrequest, rfl⟩ := hmay
              exact ⟨⟨hfollows, hsound.newId, nofun⟩,
                .effect (execute_allowed hrequest h) rfl hreply rfl⟩
      | fetchAll sql limit =>
          obtain ⟨most, hrequest, rfl, rfl⟩ := hmay
          exact ⟨⟨hfollows, hsound.newId, nofun⟩,
            .effect (list_allowed hrequest hcheck h) rfl hreply rfl⟩
  | @fetchLost call statement next stage underway =>
      obtain ⟨⟨hreply, hcheck, hmay⟩, hnext⟩ := hsound.follows
      obtain rfl : underway = none := hsound.underway_eq_none hreply
      refine ⟨⟨hnext Fetched.lost, hsound.newId, ?_⟩, .silent rfl rfl hreply.symm⟩
      intro op hop
      obtain rfl := Option.some.inj hop
      exact ⟨rfl, hcheck, hmay call.newId hsound.newId⟩
  | @executeLost call statement next stage underway =>
      obtain ⟨⟨hreply, hcheck, hmay⟩, hnext⟩ := hsound.follows
      obtain rfl : underway = none := hsound.underway_eq_none hreply
      refine ⟨⟨hnext Executed.lost, hsound.newId, ?_⟩, .silent rfl rfl hreply.symm⟩
      intro op hop
      obtain rfl := Option.some.inj hop
      exact ⟨rfl, hcheck, hmay⟩
  | @late call program stage op _ h =>
      obtain ⟨hreply, hcheck, hsends⟩ := hsound.lost op rfl
      exact ⟨⟨hsound.follows, hsound.newId, nofun⟩,
        .effect (late_allowed hcheck hsends h) rfl rfl hreply⟩

/-- Every step of a session does what is allowed, or nothing. -/
theorem sessions_lawful :
    clients.Lawful (Allowed decode collation.machines) (sessions decode collation)
      (Client.Sound decode) where
  start client h := by
    obtain ⟨call, rfl⟩ := h
    refine ⟨⟨program_spec call.request, ?_, nofun⟩, rfl⟩
    intro known hknown
    cases hknown
  act _ _ _ _ _ hsound h := act_step hsound h
  env _ _ h := h.elim

/-- What a request that has ended tells its caller: the outcome it has in the history, or that its
input was refused or the database could not be reached. -/
theorem Client.Sound.ended {client : Client} {outcome : Except Failure (List Machine)}
    (h : client.Sound decode) (hdone : client.program = .done outcome) :
    client.settled = some outcome ∨ client.settled = none ∧
      (outcome = .error (.of .database) ∨
        ∃ e, outcome = .error e ∧ client.call.request.check decode = .error e) := by
  have hends := h.follows
  rw [hdone, Monitor.wp_done, Request.Ended] at hends
  unfold Client.settled
  cases hunderway : client.underway with
  | none =>
      cases hreply : client.stage.reply with
      | none =>
          rw [hreply] at hends
          exact Or.inr ⟨rfl, hends⟩
      | some reply =>
          rw [hreply] at hends
          exact Or.inl (congrArg some hends.symm)
  | some op =>
      rw [(h.lost op hunderway).1] at hends
      exact Or.inr ⟨rfl, Or.inl hends⟩

/-- **The inventory is linearizable.**  In every interleaving the requests have taken effect one
after another, each at most once; what is added later comes later; and a request that has ended has
told its caller the outcome it has in that order, or that it was refused, or that the database
failed: then its statement was not sent, or it may yet take effect. -/
theorem inventory_linearizable {t : Table} {p q : Pool Table Client}
    (h : (sessions decode collation).Reachable t p)
    (hlater : Relation.ReflTransGen (sessions decode collation).Move p q) :
    ∃ history more, clients.Fits (Allowed decode collation.machines) t.catalog p history ∧
      clients.Fits (Allowed decode collation.machines) t.catalog q (history ++ more) ∧
        ∀ client ∈ p.procs, ∀ outcome, client.program = .done outcome →
          client.settled = some outcome ∨ client.settled = none ∧
            (outcome = .error (.of .database) ∨
              ∃ e, outcome = .error e ∧ client.call.request.check decode = .error e) := by
  obtain ⟨history, more, hfirst, hboth⟩ := View.linearizable_later sessions_lawful h hlater
  exact ⟨history, more, hfirst, hboth, fun client hclient outcome hdone =>
    (sessions_lawful.invariant h client hclient).ended hdone⟩

end Sessions

section Valid

variable {decode : String → Option Text.Bytes} {collation : Collation} {c c' : Catalog}

/-- A machine that was checked takes its place in the catalogue. -/
theorem Catalog.Valid.put (hc : c.Valid decode) {machine : Machine}
    (hfields : validateMachineFields machine.displayName machine.sshHost machine.sshPort
      machine.sshUsername = .ok ())
    (hpin : ∀ key ∈ machine.pinnedHostPublicKey, validateHostPublicKey decode key = .ok ())
    (hname : ¬ c.TakenBy machine.displayName machine.id) : (c.put machine).Valid decode := by
  have hcases {id : Uuid} {m : Machine} (h : c.put machine id = some m) :
      (id = machine.id ∧ m = machine) ∨ (id ≠ machine.id ∧ c id = some m) := by
    by_cases hid : id = machine.id
    · subst hid
      rw [Catalog.put, Function.update_self] at h
      exact Or.inl ⟨rfl, (Option.some.inj h).symm⟩
    · rw [Catalog.put, Function.update_of_ne hid] at h
      exact Or.inr ⟨hid, h⟩
  refine ⟨fun id m h => ?_, fun id m h => ?_, fun id m h => ?_, fun id m h htaken => ?_⟩
  · rcases hcases h with ⟨rfl, rfl⟩ | ⟨-, hold⟩
    · rfl
    · exact hc.ids id m hold
  · rcases hcases h with ⟨rfl, rfl⟩ | ⟨-, hold⟩
    · exact hfields
    · exact hc.fields id m hold
  · rcases hcases h with ⟨rfl, rfl⟩ | ⟨-, hold⟩
    · exact hpin
    · exact hc.pins id m hold
  · obtain ⟨other, m', hne, hother, hsame⟩ := htaken
    rcases hcases h with ⟨rfl, rfl⟩ | ⟨hid, hold⟩
    · rcases hcases hother with ⟨rfl, -⟩ | ⟨-, hold'⟩
      · exact hne rfl
      · exact hname ⟨other, m', hne, hold', hsame⟩
    · rcases hcases hother with ⟨rfl, rfl⟩ | ⟨-, hold'⟩
      · exact hname ⟨id, m, hid, hold, hsame.symm⟩
      · exact hc.names id m hold ⟨other, m', hne, hold', hsame⟩

/-- Removing a machine keeps the others valid. -/
theorem Catalog.Valid.remove (hc : c.Valid decode) (id : Uuid) :
    Catalog.Valid decode (Function.update c id none) := by
  have hold {other : Uuid} {m : Machine} (h : Function.update c id none other = some m) :
      c other = some m := by
    by_cases hid : other = id
    · subst hid
      simp at h
    · rwa [Function.update_of_ne hid] at h
  refine ⟨fun other m h => hc.ids other m (hold h), fun other m h => hc.fields other m (hold h),
    fun other m h => hc.pins other m (hold h), fun other m h htaken => ?_⟩
  obtain ⟨third, m', hne, hthird, hsame⟩ := htaken
  exact hc.names other m (hold h) ⟨third, m', hne, hold hthird, hsame⟩

/-- **What a request does leaves every machine checked.** -/
theorem Done.valid {call : Call} {now : Int} {machines : List Machine}
    (hcheck : call.request.check decode = .ok ())
    (h : Done collation.machines c call now machines c') (hc : c.Valid decode) :
    c'.Valid decode := by
  cases hrequest : call.request with
  | create input =>
      rw [hrequest] at hcheck
      rw [Done, hrequest] at h
      obtain ⟨-, hfree, -, rfl⟩ := h
      exact hc.put (check_create hcheck).1 (check_create hcheck).2 hfree
  | get id =>
      rw [Done, hrequest] at h
      obtain ⟨-, -, -, rfl⟩ := h
      exact hc
  | list limit =>
      rw [Done, hrequest] at h
      obtain ⟨-, rfl⟩ := h
      exact hc
  | update id input =>
      rw [hrequest] at hcheck
      rw [Done, hrequest] at h
      obtain ⟨machine, hfound, hfree, -, rfl⟩ := h
      have hid : machine.id = id := hc.ids id machine hfound
      have hpins := hc.pins id machine hfound
      apply hc.put
      · exact validated_eq_ok hcheck
      · exact hpins
      · exact hid.symm ▸ hfree
  | replaceHostKey id key =>
      rw [hrequest] at hcheck
      rw [Done, hrequest] at h
      obtain ⟨machine, hfound, -, rfl⟩ := h
      have hid : machine.id = id := hc.ids id machine hfound
      have hfields := hc.fields id machine hfound
      have hfree := hc.names id machine hfound
      apply hc.put
      · exact hfields
      · intro key' hkey'
        obtain rfl : key = key' := Option.some.inj hkey'
        exact validated_eq_ok hcheck
      · exact hid.symm ▸ hfree
  | clearHostKey id =>
      rw [Done, hrequest] at h
      obtain ⟨machine, hfound, -, rfl⟩ := h
      have hid : machine.id = id := hc.ids id machine hfound
      have hfields := hc.fields id machine hfound
      have hfree := hc.names id machine hfound
      apply hc.put
      · exact hfields
      · intro key hkey
        cases hkey
      · exact hid.symm ▸ hfree
  | delete id =>
      rw [Done, hrequest] at h
      obtain ⟨-, -, -, rfl⟩ := h
      exact hc.remove id

/-- What is allowed keeps a catalogue valid. -/
theorem Allowed.valid {call : Call} {outcome : Except Failure (List Machine)}
    (h : Allowed decode collation.machines c call outcome c') (hc : c.Valid decode) :
    c'.Valid decode := by
  obtain ⟨hcheck, h⟩ := h
  match outcome, h with
  | .ok machines, ⟨now, hdone⟩ => exact hdone.valid hcheck hc
  | .error (.of .notFound), ⟨hsame, _⟩ => exact hsame ▸ hc
  | .error (.of .conflict), ⟨hsame, _⟩ => exact hsame ▸ hc
  | .error (.of .database), h =>
      rcases h with hsame | ⟨now, machines, hdone⟩
      · exact hsame ▸ hc
      · exact hdone.valid hcheck hc

/-- The request sends the statement next, or has lost it and it may yet be carried out. -/
def Client.Fetches (client : Client) (statement : Statement) : Prop :=
  (∃ next, client.program = .call (.repository (.fetch statement)) next) ∨
    client.underway = some (.fetch statement)

/-- A statement of a request is the one it is for, and its input was checked. -/
theorem Client.Sound.fetches {client : Client} (h : client.Sound decode) {statement : Statement}
    (hfetches : client.Fetches statement) :
    client.call.request.check decode = .ok () ∧ client.call.fetched = some statement := by
  rcases hfetches with ⟨next, hprogram⟩ | hunderway
  · have hfollows := h.follows
    rw [hprogram, Monitor.wp_call] at hfollows
    obtain ⟨⟨-, hcheck, hmay⟩, -⟩ := hfollows
    exact ⟨hcheck, hmay client.call.newId h.newId⟩
  · obtain ⟨-, hcheck, hsends⟩ := h.lost _ hunderway
    exact ⟨hcheck, hsends⟩

/-- **Every machine there is was checked**, in every interleaving, and no row that a request would
leave, now or with a statement that it has lost, violates the constraints on single rows. -/
theorem stored_valid {t : Table} {p : Pool Table Client} (ht : t.catalog.Valid decode)
    (h : (sessions decode collation).Reachable t p) :
    p.shared.catalog.Valid decode ∧
      ∀ client ∈ p.procs, ∀ statement, client.Fetches statement →
        ∀ now, p.shared.fetch now statement ≠ some (.error "23514") := by
  constructor
  · obtain ⟨history, hfits⟩ := View.linearizable sessions_lawful h
    exact hfits.legal.invariant (fun _ _ _ _ hallowed hc => Allowed.valid hallowed hc) ht
  · intro client hclient statement hfetches now hviolates
    have hsound := sessions_lawful.invariant h client hclient
    obtain ⟨hcheck, hfetched⟩ := hsound.fetches hfetches
    have hcarried := fetch_carried collation.machines (t := p.shared) now hcheck hfetched
    exact Carried.passed _ hcarried hviolates

/-- The table as it was created. -/
def Table.empty : Table := ⟨[], by simp, by simp, by simp⟩

/-- An empty table is valid. -/
theorem Table.empty_valid : Table.empty.catalog.Valid decode := by
  refine ⟨?_, ?_, ?_, ?_⟩
  all_goals
    intro id m h
    cases h

end Valid

section Run

/-- The public key of the sample, in base64 and decoded. -/
def sampleKeyText : String :=
  "AAAAC3NzaC1lZDI1NTE5AAAAIAAAAAAAAAAAAAAAAAAAAAAAAAAAAAAAAAAAAAAAAAAA"

/-- A decoder that knows one key. -/
def decodeSample (encoded : String) : Option Text.Bytes :=
  if encoded = sampleKeyText then
    some ([0, 0, 0, 11] ++ ed25519Name ++ [0, 0, 0, 32] ++ List.replicate 32 0)
  else none

/-- Names are not compared. -/
def anyOrder : Collation := ⟨fun _ _ => true, fun _ _ _ _ _ => rfl, fun _ _ => rfl⟩

/-- The sessions with a decoder and a collation. -/
def someSessions : Behaviour Table Client := sessions decodeSample anyOrder

/-- A step more of a later pool. -/
theorem answered_later {t' : Table} {first p : Pool Table Client}
    (h : Relation.ReflTransGen someSessions.Move first p) (i : Nat) {call : Call} {op : TableOp}
    {next : TableAns op → Program TableOp TableAns (Except Failure (List Machine))}
    {stage : Stage} {answer : TableAns op}
    (hi : p.procs[i]? = some ⟨call, .call op next, stage, none⟩)
    (hanswer : Answers anyOrder call.newId p.shared op answer t') :
    Relation.ReflTransGen someSessions.Move first
      ⟨t', p.procs.set i ⟨call, next answer, call.request.next stage op answer, none⟩⟩ :=
  h.tail (.act hi (.answered hanswer))

/-- A later pool is reachable where the first is. -/
theorem reachable_of_later {t : Table} {first p : Pool Table Client}
    (h : someSessions.Reachable t first)
    (hlater : Relation.ReflTransGen someSessions.Move first p) : someSessions.Reachable t p := by
  induction hlater with
  | refl => exact h
  | tail _ hm ih => exact .move ih hm

/-- The first pool is the latest at first. -/
theorem afterwards {first p : Pool Table Client}
    (_ : Relation.ReflTransGen someSessions.Move first p) :
    Relation.ReflTransGen someSessions.Move p p := .refl

/-- A table with one machine. -/
def oneMachine : Table where
  rows := [⟨7, "n", "h", 22, "homelab", none, 0, 0⟩]
  checked := by decide
  ids := by decide
  names := by decide

/-- Two requests for the same machine. -/
def getAndDelete : Pool Table Client :=
  ⟨oneMachine, [.starting decodeSample ⟨.get 7, 0⟩, .starting decodeSample ⟨.delete 7, 0⟩]⟩

/-- A read and a deletion of it, both started. -/
theorem getAndDelete_reachable : someSessions.Reachable oneMachine getAndDelete :=
  .move (.move .init (.join ⟨_, rfl⟩)) (.join ⟨_, rfl⟩)

/-- The statement that deletes the machine is lost; the machine is read, then deleted after all. -/
theorem inventory_linearizable_get_delete : ∃ p q : Pool Table Client, ∃ history more,
    clients.Fits (Allowed decodeSample anyOrder.machines) oneMachine.catalog p history ∧
      clients.Fits (Allowed decodeSample anyOrder.machines) oneMachine.catalog q
        (history ++ more) ∧ p.shared.catalog 7 ≠ none ∧ q.shared.catalog 7 = none := by
  have start := Relation.ReflTransGen.refl (r := someSessions.Move) (a := getAndDelete)
  have waiting := answered_later start 1 rfl (.connect true)
  have lost := waiting.tail (.act (i := 1) rfl .executeLost)
  have connected := answered_later lost 0 rfl (.connect true)
  have read := answered_later connected 0 rfl (.row (oneMachine.fetch_get 0 7) rfl)
  have deleted := (afterwards read).tail
    (.act (i := 1) rfl (.late (.execute (oneMachine.execute_delete 7))))
  obtain ⟨history, more, hread, hdeleted, -⟩ :=
    inventory_linearizable (reachable_of_later getAndDelete_reachable read) deleted
  refine ⟨_, _, history, more, hread, hdeleted, ?_, ?_⟩
  · simp [Table.catalog, catalogOf, oneMachine, machineFromRow]
  · rfl

/-- A machine with a pinned key. -/
def sampleInput : CreateMachine :=
  ⟨"node", "node.example", 22, "homelab", some ("ssh-ed25519 " ++ sampleKeyText)⟩

/-- A request for a new machine, once its input was checked. -/
def creating (input : CreateMachine) (id : Uuid) : Client :=
  ⟨⟨.create input, id⟩, (ofRepository (do
    let id ← ask Op.newUuid
    mapErr mapDatabaseError (fetchOne (createStatement id input)) : Repository Machine)
    fun machine => [machine]).run, .fresh, none⟩

/-- A creation that is about to connect. -/
theorem starting_create {input : CreateMachine} {key : String} (id : Uuid)
    (hfields : validateMachineFields input.displayName input.sshHost input.sshPort
      input.sshUsername = .ok ())
    (hpin : input.pinnedHostPublicKey = some key)
    (hkey : validateHostPublicKey decodeSample key = .ok ()) :
    Client.starting decodeSample ⟨.create input, id⟩ = creating input id := by
  unfold Client.starting Request.program creating
  dsimp only
  rw [Inventory.create, hfields]
  simp only [createStatement, hpin]
  show Client.mk _ (ofRepository (answer (Except.mapError RepositoryError.validation
    (validateHostPublicKey decodeSample key)) >>= _) _).run _ _ = _
  rw [hkey]
  rfl

/-- The row of the machine. -/
def storedRow : Row :=
  ⟨7, "node", "node.example", 22, "homelab", some ("ssh-ed25519 " ++ sampleKeyText), 0, 0⟩

/-- The table with that row. -/
def storedTable : Table where
  rows := [storedRow]
  checked := by decide +kernel
  ids := by decide
  names := by decide

/-- The machine is stored in the empty table, and is one that was checked. -/
theorem stored_valid_create : ∃ p : Pool Table Client, p.shared = storedTable ∧
    p.shared.catalog 7 ≠ none ∧ p.shared.catalog.Valid decodeSample := by
  have hstarting : Client.starting decodeSample ⟨.create sampleInput, 7⟩ =
      creating sampleInput 7 :=
    starting_create 7 (by decide +kernel) rfl (by decide +kernel)
  have hstart : someSessions.Reachable Table.empty ⟨Table.empty, [creating sampleInput 7]⟩ :=
    .move .init (.join ⟨_, hstarting.symm⟩)
  have hinserted : Table.empty.fetch 0 (createStatement 7 sampleInput) =
      some (.ok (storedTable, some storedRow)) := by
    have hrows : Table.ofRows [storedRow] = .ok storedTable := storedTable.ofRows_rows
    simp only [Table.fetch, createStatement, ↓reduceIte]
    exact congrArg (fun r => some (r.map fun t' => (t', some storedRow))) hrows
  have start := Relation.ReflTransGen.refl (r := someSessions.Move)
    (a := (⟨Table.empty, [creating sampleInput 7]⟩ : Pool Table Client))
  have named := answered_later start 0 rfl .newUuid
  have connected := answered_later named 0 rfl (.connect true)
  have stored := answered_later connected 0 rfl (.row hinserted rfl)
  refine ⟨_, rfl, ?_, (stored_valid Table.empty_valid (reachable_of_later hstart stored)).1⟩
  decide +kernel

end Run

end Inventory
