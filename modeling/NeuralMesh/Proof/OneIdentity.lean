import NeuralMesh.Agent.Identity
import NeuralMesh.Base.Along

/-!
# One identity for a machine

The agent and the command line share a key file. Whatever the operating system refuses, whatever a
failed write leaves and whatever becomes of the requests, a machine registers as one provider and is
given one account.
-/

namespace NeuralMesh.Coordinator.Accounts

variable {sha256 : Bytes → Vector UInt8 32} {timeText : Time → String} {m : Moment} {rows : Rows}

/-- `ecdsa_pubkey_hex TEXT NOT NULL UNIQUE` -/
def UniqueKeys (rows : Rows) : Prop :=
  ∀ id id' row row', rows.get? id = some row → rows.get? id' = some row' →
    row.ecdsaPubkeyHex = row'.ecdsaPubkeyHex → id = id'

/-- Every row is still there with its key, and no two rows have come to share one. -/
structure KeysKept (rows rows' : Rows) : Prop where
  kept : ∀ id row, rows.get? id = some row →
    ∃ row', rows'.get? id = some row' ∧ row'.ecdsaPubkeyHex = row.ecdsaPubkeyHex
  unique : UniqueKeys rows → UniqueKeys rows'

namespace KeysKept

theorem refl (rows : Rows) : KeysKept rows rows := ⟨fun _ row hrow => ⟨row, hrow, rfl⟩, id⟩

theorem trans {rows' rows'' : Rows} (h : KeysKept rows rows') (h' : KeysKept rows' rows'') :
    KeysKept rows rows'' := by
  refine ⟨fun id row hrow => ?_, fun hunique => h'.unique (h.unique hunique)⟩
  obtain ⟨row', hrow', hkey⟩ := h.kept id row hrow
  obtain ⟨row'', hrow'', hkey'⟩ := h'.kept id row' hrow'
  exact ⟨row'', hrow'', hkey'.trans hkey⟩

/-- An update of a row that leaves its key. -/
theorem of_update (accountId : AccountId) {f : Row → Row}
    (hf : ∀ row, (f row).ecdsaPubkeyHex = row.ecdsaPubkeyHex) :
    KeysKept rows (rows.update accountId f) := by
  have hback : ∀ id row', (rows.update accountId f).get? id = some row' →
      ∃ row, rows.get? id = some row ∧ row'.ecdsaPubkeyHex = row.ecdsaPubkeyHex := by
    intro id row' hrow'
    obtain ⟨row, rfl, hrow, rfl⟩ | ⟨-, hrow⟩ := Table.get?_update_cases hrow'
    · exact ⟨row, hrow, hf row⟩
    · exact ⟨row', hrow, rfl⟩
  constructor
  · intro id row hrow
    rw [Table.get?_update]
    split
    · rename_i heq
      subst heq
      exact ⟨f row, by rw [hrow, Option.map_some], hf row⟩
    · exact ⟨row, hrow, rfl⟩
  · intro hunique id id' row row' hrow hrow' hkey
    obtain ⟨old, hold, holdKey⟩ := hback id row hrow
    obtain ⟨old', hold', holdKey'⟩ := hback id' row' hrow'
    exact hunique id id' old old' hold hold' (by rw [← holdKey, ← holdKey', hkey])

/-- A new row whose key no row has. -/
theorem of_insert {accountId : AccountId} {new : Row} (hnone : rows.get? accountId = none)
    (hfresh : ¬ HasKey rows new.ecdsaPubkeyHex) :
    KeysKept rows (rows.upsert accountId new id) := by
  have hget : ∀ id', (rows.upsert accountId new id).get? id' =
      if id' = accountId then some new else rows.get? id' := by
    intro id'
    rw [Table.get?_upsert, hnone, Option.map_none, Option.getD_none]
  have hother : ∀ id' row, rows.get? id' = some row → row.ecdsaPubkeyHex ≠ new.ecdsaPubkeyHex :=
    fun id' row hrow hkey => hfresh ⟨(id', row), Table.mem_rows_iff.mpr hrow, hkey⟩
  constructor
  · intro id' row hrow
    refine ⟨row, ?_, rfl⟩
    rw [hget, if_neg, hrow]
    intro heq
    rw [heq, hnone] at hrow
    cases hrow
  · intro hunique id' id'' row row' hrow hrow' hkey
    rw [hget] at hrow hrow'
    split at hrow <;> split at hrow'
    · rename_i heq heq'
      rw [heq, heq']
    · cases hrow
      exact absurd hkey.symm (hother id'' row' hrow')
    · cases hrow'
      exact absurd hkey (hother id' row hrow)
    · exact hunique id' id'' row row' hrow hrow' hkey

theorem of_upsertRow (now : Time) (accountId : AccountId) (new : Row) :
    KeysKept rows (upsertRow rows now accountId new).2 := by
  unfold upsertRow
  cases hrow : rows.get? accountId with
  | some row => exact of_update accountId fun _ => rfl
  | none =>
      dsimp only
      split
      · exact refl rows
      · rename_i hfresh
        exact of_insert hrow hfresh

end KeysKept

theorem serve_keysKept (r : AccountRequest) :
    KeysKept rows (r.serve sha256 timeText m rows).2 := by
  cases r with
  | registerAccount body =>
      by_cases hvalid : body.Valid
      · rw [(serve_registerAccount sha256 timeText m rows hvalid).2]
        split
        · exact .refl rows
        · exact .of_upsertRow m.now (body.accountId sha256) (body.row m.now)
      · rw [serve_registerAccount_of_invalid hvalid]
        exact .refl rows
  | verifyDevice accountId body =>
      rcases serve_verifyDevice accountId body with hsame | htouched
      · rw [hsame]
        exact .refl rows
      · rw [htouched]
        exact .of_update accountId fun _ => rfl
  | reregisterDevice accountId body =>
      by_cases haccepted : ∃ row, body.Accepted m rows accountId row
      · obtain ⟨row, haccepted⟩ := haccepted
        rw [(serve_reregisterDevice sha256 timeText haccepted).2]
        exact .of_update accountId fun _ => rfl
      · rw [serve_reregisterDevice_of_not fun row haccepts => haccepted ⟨row, haccepts⟩]
        exact .refl rows

end NeuralMesh.Coordinator.Accounts

namespace NeuralMesh.Identity

open Coordinator.Accounts
open Coordinator.Grpc (RegisterProviderRequest)
open Crypto (Ed25519 NmKeypair tryInto tryInto_eq_some)
open Dashboard (Dispatch)

variable {sha256 : Bytes → Vector UInt8 32} {timeText : Time → String}

/-- An account id that is answered is the derived one, and its row has the key of the body, unless it
had another before. -/
theorem accountIdOf_serve {body : RegisterAccountBody} {m : Moment} {rows : Rows}
    {accountId : AccountId}
    (hanswered : accountIdOf ((AccountRequest.registerAccount body).serve sha256 timeText m rows).1 =
      .ok accountId) :
    accountId = body.accountId sha256 ∧
      ((∀ row, rows.get? accountId = some row → row.ecdsaPubkeyHex = body.ecdsaPubkeyHex) →
        ∃ row, ((AccountRequest.registerAccount body).serve sha256 timeText m rows).2.get?
          accountId = some row ∧ row.ecdsaPubkeyHex = body.ecdsaPubkeyHex) := by
  by_cases hvalid : body.Valid
  swap
  · rw [serve_registerAccount_of_invalid hvalid, accountIdOf, if_pos nofun] at hanswered
    cases hanswered
  have hrows := (serve_registerAccount sha256 timeText m rows hvalid).2
  by_cases hdown : m.down (body.upsert sha256)
  · have hstatus := (serve_registerAccount sha256 timeText m rows hvalid).1
    rw [if_pos hdown] at hstatus
    rw [accountIdOf, hstatus, if_pos (by decide)] at hanswered
    cases hanswered
  rw [if_neg hdown] at hrows
  rw [hrows]
  rw [AccountRequest.serve, AccountRequest.program, registerAccount,
    if_neg (body.valid_iff.mp hvalid), Program.askOr,
    Program.run_query_of_some _ (Statement.exec_of_up (Bool.eq_false_iff.mpr hdown))] at hanswered
  split at hanswered
  · rename_i row hrow
    rw [run_attempt] at hanswered
    cases hanswered
    have hstored := (get?_upsertRow_self m.now (body.accountId sha256) (body.row m.now)).trans hrow
    refine ⟨rfl, fun hkey => ⟨row, hstored, ?_⟩⟩
    obtain ⟨old, hold, hsame, -⟩ | ⟨-, rfl⟩ := get?_upsertRow_cases hstored
    · rw [hsame, hkey old hold]
    · rfl
  · cases hanswered

/-! ### What becomes of a machine -/

variable {ed : Ed25519} {p : Process} {key path : Path} {s t u : Mac}

/-- The text is the public key of the key file. -/
def Bears (ed : Ed25519) (key : Path) (files : FileSystem) (text : String) : Prop :=
  ∃ keypair : NmKeypair, files.read key = some keypair.seed.toList ∧
    text = keypair.publicKeyHex ed

/-- The account is there under the public key of the key file. -/
def Owns (ed : Ed25519) (key : Path) (s : Mac) (accountId : AccountId) : Prop :=
  accountId.utf8ByteSize = 24 ∧
    ∃ row, s.rows.get? accountId = some row ∧ Bears ed key s.files row.ecdsaPubkeyHex

/-- The key file stays as it is once it is there, the rows keep their keys, and the agent registers
under the key of the file. -/
structure Later (ed : Ed25519) (key : Path) (s t : Mac) : Prop where
  file : ∀ content, s.files.read key = some content → t.files.read key = some content
  rows : KeysKept s.rows t.rows
  registrations : ∀ req ∈ t.registrations,
    req ∈ s.registrations ∨ Bears ed key t.files req.providerId

theorem Bears.unique {files : FileSystem} {text text' : String} (h : Bears ed key files text)
    (h' : Bears ed key files text') : text = text' := by
  obtain ⟨keypair, hread, rfl⟩ := h
  obtain ⟨keypair', hread', rfl⟩ := h'
  have hseed : keypair.seed = keypair'.seed := by
    rw [hread, Option.some.injEq] at hread'
    exact Vector.toList_inj.mp hread'
  rw [NmKeypair.publicKeyHex, NmKeypair.publicKeyHex, hseed]

theorem Bears.utf8ByteSize {files : FileSystem} {text : String} (h : Bears ed key files text) :
    text.utf8ByteSize = 64 := by
  obtain ⟨keypair, -, rfl⟩ := h
  rw [utf8ByteSize_eq, NmKeypair.publicKeyHex, Hex.length_utf8_encode, Vector.length_toList]

namespace Later

theorem bears {text : String} (h : Later ed key s t) (hbears : Bears ed key s.files text) :
    Bears ed key t.files text := by
  obtain ⟨keypair, hread, htext⟩ := hbears
  exact ⟨keypair, h.file _ hread, htext⟩

theorem owns {accountId : AccountId} (h : Later ed key s t) (howns : Owns ed key s accountId) :
    Owns ed key t accountId := by
  obtain ⟨hsize, row, hrow, hbears⟩ := howns
  obtain ⟨row', hrow', hkey⟩ := h.rows.kept accountId row hrow
  exact ⟨hsize, row', hrow', by rw [hkey]; exact h.bears hbears⟩

theorem refl (s : Mac) : Later ed key s s := ⟨fun _ => id, .refl s.rows, fun _ => .inl⟩

theorem trans (h : Later ed key s t) (h' : Later ed key t u) : Later ed key s u := by
  refine ⟨fun content hread => h'.file content (h.file content hread), h.rows.trans h'.rows, ?_⟩
  intro req hreq
  obtain hbefore | hbears := h'.registrations req hreq
  · exact (h.registrations req hbefore).imp_right h'.bears
  · exact .inr hbears

end Later

/-! ### Steps on the machine -/

/-- What the steps on the machine leave. -/
structure Aside (key : Path) (s t : Mac) : Prop where
  file : ∀ content, s.files.read key = some content → t.files.read key = some content
  rows : t.rows = s.rows
  registrations : t.registrations = s.registrations

theorem Aside.refl (s : Mac) : Aside key s s := ⟨fun _ => id, rfl, rfl⟩

theorem Aside.trans (h : Aside key s t) (h' : Aside key t u) : Aside key s u :=
  ⟨fun content hread => h'.file content (h.file content hread), h'.rows.trans h.rows,
    h'.registrations.trans h.registrations⟩

theorem Aside.later (h : Aside key s t) : Later ed key s t := by
  refine ⟨h.file, ?_, fun req hreq => .inl ?_⟩
  · rw [h.rows]
    exact .refl s.rows
  · rwa [← h.registrations]

/-- A program of such steps. -/
def Local {α : Type} (key : Path) (x : StartM α) : Prop :=
  ∀ s, Meets (Aside key s) x fun _ => Aside key s

theorem local_of_step {α : Type} {x : StartM α} (hstep : ∀ t, Aside key t (x.outcome t).2) :
    Local key x :=
  fun _ t ht => ht.trans (hstep t)

theorem Local.bind {α β : Type} {x : StartM α} {next : α → StartM β} (hx : Local key x)
    (hnext : ∀ a, Local key (next a)) : Local key (x >>= next) :=
  fun s => (hx s).bind (fun a => hnext a s) fun _ _ ht => ht

theorem Local.get_bind {β : Type} {next : Mac → StartM β} (hnext : ∀ s, Local key (next s)) :
    Local key (get >>= next) :=
  fun s => Meets.get_bind fun t => Meets.weaken (fun _ ht => ht.2) (hnext t s)

theorem local_throw {α : Type} (e : String) : Local key (throw e : StartM α) :=
  fun _ => Meets.of_throw fun _ ht => ht

theorem local_pure {α : Type} (a : α) : Local key (pure a : StartM α) :=
  fun _ => Meets.of_pure fun _ ht => ht

variable (p) in
/-- A directory that is made changes what no file holds. -/
theorem createDirAll_reads (name : OsStep) (path : Path) (t : Mac) :
    ∃ files, ((p.createDirAll name path).outcome t).2 = { t with files } ∧
      ∀ q, files.read q = t.files.read q := by
  dsimp only [Fallible.outcome, Process.createDirAll, ExceptT.run, ExceptT.mk, StateT.run]
  split
  · rename_i files hcreate
    split at hcreate
    · cases hcreate
    · exact ⟨files, rfl, fun q => FileSystem.read_createDirAll hcreate⟩
  · exact ⟨t.files, rfl, fun q => rfl⟩

variable (p) in
/-- A write that fails may have written a part. -/
theorem write_files (name : OsStep) (path : Path) (content : Bytes) (t : Mac) :
    ∃ files, ((p.write name path content).outcome t).2 = { t with files } ∧
      (files = t.files ∨ ∃ bytes, t.files.write path bytes = some files) ∧
      (((p.write name path content).outcome t).1 = .ok () → files.read path = some content) := by
  dsimp only [Fallible.outcome, Process.write, ExceptT.run, ExceptT.mk, StateT.run]
  split
  · refine ⟨_, rfl, ?_, nofun⟩
    cases hleft : (p.cut name).bind fun n => t.files.write path (content.take n) with
    | none => exact .inl rfl
    | some files =>
        obtain ⟨n, -, hwrite⟩ := Option.bind_eq_some_iff.mp hleft
        exact .inr ⟨content.take n, hwrite⟩
  · cases hwrite : t.files.write path content with
    | none => exact ⟨t.files, rfl, .inl rfl, nofun⟩
    | some files => exact ⟨files, rfl, .inr ⟨content, hwrite⟩, fun _ => FileSystem.read_write hwrite⟩

variable (p) in
theorem local_createDirAll (name : OsStep) (path : Path) : Local key (p.createDirAll name path) := by
  apply local_of_step
  intro t
  obtain ⟨files, houtcome, hreads⟩ := createDirAll_reads p name path t
  rw [houtcome]
  exact ⟨fun content hread => (hreads key).trans hread, rfl, rfl⟩

variable (p) in
/-- A write beside the key file, or where there is none. -/
theorem aside_write (name : OsStep) (content : Bytes)
    (hbeside : t.files.read key = none ∨ key ≠ path) :
    Aside key t ((p.write name path content).outcome t).2 := by
  obtain ⟨files, houtcome, hfiles, -⟩ := write_files p name path content t
  rw [houtcome]
  refine ⟨fun before hread => ?_, rfl, rfl⟩
  obtain hnone | hne := hbeside
  · rw [hnone] at hread
    cases hread
  · obtain rfl | ⟨bytes, hwrite⟩ := hfiles
    · exact hread
    · exact (FileSystem.read_write_of_ne hwrite hne).trans hread

variable (p) in
theorem local_write (name : OsStep) (hne : key ≠ path) (content : Bytes) :
    Local key (p.write name path content) :=
  local_of_step fun _ => aside_write p name content (.inr hne)

/-! ### The key -/

/-- The key that a process goes by if it gets that far. -/
def Process.keypair (p : Process) (key : Path) (files : FileSystem) : NmKeypair :=
  ⟨((files.read key).bind (tryInto 32)).getD p.seed⟩

/-- What a process has of the key file once it has its key. -/
structure HasKeypair (p : Process) (key : Path) (s t : Mac) (keypair : NmKeypair) : Prop where
  given : keypair = p.keypair key s.files
  stored : t.files.read key = some keypair.seed.toList

variable (p key s) in
theorem loadFromFile_meets :
    Meets (fun t => t = s) (p.loadFromFile key) fun result t =>
      t = s ∧ ∀ keypair, result = .ok keypair → HasKeypair p key s t keypair := by
  rw [Process.loadFromFile]
  apply Meets.get_bind
  rintro t
  cases hread : (if p.refuses .readKey then none else t.files.read key) with
  | none => exact Meets.of_throw fun u hu => ⟨hu.2, nofun⟩
  | some bytes =>
      dsimp only
      cases hinto : tryInto 32 bytes with
      | none => exact Meets.of_throw fun u hu => ⟨hu.2, nofun⟩
      | some seed =>
          refine Meets.of_pure fun u hu => ⟨hu.2, fun keypair hok => ?_⟩
          obtain ⟨rfl, rfl⟩ := hu
          cases hok
          have hfile : u.files.read key = some bytes := by
            split at hread
            · cases hread
            · exact hread
          refine ⟨?_, ?_⟩
          · rw [Process.keypair, hfile, Option.bind_some, hinto, Option.getD_some]
          · rw [hfile, tryInto_eq_some.mp hinto]

variable (p) in
/-- A new key is written where there is no file. -/
theorem saveToFile_meets (keypair : NmKeypair) (hnone : s.files.read key = none) :
    Meets (fun t => t = s) (p.saveToFile keypair key) fun result t =>
      Aside key s t ∧ (result = .ok () → t.files.read key = some keypair.seed.toList) := by
  rw [Process.saveToFile]
  refine Meets.bind (Q := fun _ t => Aside key s t ∧ t.files.read key = none) ?_ (fun _ => ?_)
    fun e t ht => ⟨ht.1, nofun⟩
  · rintro t rfl
    obtain ⟨files, houtcome, hreads⟩ := createDirAll_reads p .keyDir key.dropLast t
    rw [houtcome]
    exact ⟨⟨fun content hread => (hreads key).trans hread, rfl, rfl⟩, (hreads key).trans hnone⟩
  · refine Meets.bind (Q := fun result t => Aside key s t ∧
      (result = .ok () → t.files.read key = some keypair.seed.toList)) ?_ (fun _ => ?_)
      fun e t ht => ⟨ht.1, nofun⟩
    · intro t ht
      obtain ⟨files, houtcome, -, hstored⟩ :=
        write_files p .writeKey key keypair.seed.toList t
      refine ⟨ht.1.trans (aside_write p .writeKey keypair.seed.toList (.inl ht.2)), fun hok => ?_⟩
      rw [houtcome]
      exact hstored hok
    · refine Meets.ite (fun _ => ?_) fun _ => ?_
      · exact Meets.of_throw fun t ht => ⟨ht.1, nofun⟩
      · exact Meets.of_pure fun t ht => ⟨ht.1, fun _ => ht.2 rfl⟩

theorem meets_mapError {α : Type} {P : Mac → Prop} {x : StartM α} {Q R : Except String α → Mac → Prop}
    {f : String → String} (hx : Meets P x Q) (hR : ∀ result t, Q result t → R (result.mapError f) t) :
    Meets P (mapError f x) R :=
  fun t ht => hR _ _ (hx t ht)

variable (p key s) in
theorem loadOrGenerate_meets (onLoad onSave : String → String) :
    Meets (fun t => t = s) (p.loadOrGenerate onLoad onSave key) fun result t =>
      Aside key s t ∧ ∀ keypair, result = .ok keypair → HasKeypair p key s t keypair := by
  rw [Process.loadOrGenerate]
  apply Meets.get_bind
  intro t
  by_cases hsame : t = s
  swap
  · exact fun u hu => absurd (hu.1.symm.trans hu.2) hsame
  subst hsame
  refine Meets.weaken (fun u hu => hu.2) (Meets.ite (fun _ => ?_) fun hnot => ?_)
  · refine meets_mapError (loadFromFile_meets p key t) ?_
    rintro result u ⟨rfl, hkeypair⟩
    exact ⟨.refl u, fun keypair hok => hkeypair keypair (mapError_eq_ok.mp hok)⟩
  · have hread : t.files.read key = none := by
      rw [Bool.not_eq_true, FileSystem.pathExists_eq_false] at hnot
      rw [FileSystem.read, hnot]
    have hsaved : Meets (fun u => u = t) (mapError onSave (p.saveToFile ⟨p.seed⟩ key))
        fun result u => Aside key t u ∧
          (result = .ok () → u.files.read key = some p.seed.toList) := by
      refine meets_mapError (saveToFile_meets p ⟨p.seed⟩ hread) ?_
      intro result u hu
      exact ⟨hu.1, fun hok => hu.2 (mapError_eq_ok.mp hok)⟩
    refine hsaved.bind (fun _ => ?_) fun e u hu => ⟨hu.1, nofun⟩
    refine Meets.of_pure fun u hu => ⟨hu.1, fun keypair hok => ?_⟩
    cases hok
    refine ⟨?_, hu.2 rfl⟩
    rw [Process.keypair, hread]
    rfl

/-! ### The two programs -/

variable {h : AgentHost} {c : CliHost}

variable (p h) in
theorem local_loadOrCreate (toml : Toml AgentConfig) (hne : key ≠ path) :
    Local key (loadOrCreate p h toml path) := by
  intro s
  rw [loadOrCreate]
  refine Meets.get_bind fun t => Meets.weaken (fun u hu => hu.2) (Meets.ite (fun _ => ?_) fun _ => ?_)
  · split
    · exact local_throw _ s
    · split
      · exact local_pure _ s
      · exact local_throw _ s
  · apply (local_createDirAll p .configDir path.dropLast).bind
    intro _
    split
    · exact local_throw _
    · exact (local_write p .writeConfig hne _).bind fun _ => local_pure _

variable (ed h) in
theorem register_meets (keypair : NmKeypair) (req : RegisterProviderRequest)
    (hid : req.providerId = keypair.publicKeyHex ed) :
    Meets (fun t => Aside key s t ∧ t.files.read key = some keypair.seed.toList)
      (register ed h keypair req) fun _ => Later ed key s := by
  rw [register]
  refine Meets.modify_bind (Later ed key s) ?_ ?_
  · split
    · exact Meets.of_throw fun _ ht => ht
    · exact Meets.ite (fun _ => Meets.of_throw fun _ ht => ht) fun _ => Meets.of_pure fun _ ht => ht
  · rintro t ⟨haside, hread⟩
    have hlater : Later ed key s t := haside.later
    refine ⟨hlater.file, hlater.rows, fun sent hsent => ?_⟩
    obtain hbefore | rfl := List.mem_append.mp hsent |>.imp_right List.mem_singleton.mp
    · exact hlater.registrations sent hbefore
    · exact .inr ⟨keypair, hread, hid⟩

variable (ed p h s) in
theorem agentMain_meets (toml : Toml AgentConfig) (hkey : path.dropLast ++ ["identity.key"] = key)
    (hne : key ≠ path) :
    Meets (fun t => t = s) (agentMain ed p h toml path) fun _ => Later ed key s := by
  rw [agentMain, hkey]
  refine Meets.bind (Q := fun _ => Aside key s) ?_ (fun cfg => ?_) fun _ _ ht => ht.later
  · rintro t rfl
    exact local_loadOrCreate p h toml hne t t (.refl t)
  refine Meets.bind (Q := fun _ => Aside key s) (Meets.of_ofExcept fun _ ht => ht) (fun chip => ?_)
    fun _ _ ht => ht.later
  refine Meets.bind (Q := fun result u => Aside key s u ∧
    ∀ keypair, result = .ok keypair → u.files.read key = some keypair.seed.toList) ?_
    (fun keypair => ?_) fun e u hu => hu.1.later
  · intro t ht
    obtain ⟨haside, hkeypair⟩ := loadOrGenerate_meets p key t id id t rfl
    exact ⟨ht.trans haside, fun keypair hok => (hkeypair keypair hok).stored⟩
  · refine Meets.ite (fun _ => Meets.of_throw fun u hu => hu.1.later) fun _ => ?_
    refine Meets.ite (fun _ => Meets.of_throw fun u hu => hu.1.later) fun _ => ?_
    exact Meets.weaken (fun u hu => ⟨hu.1, hu.2 keypair rfl⟩) (register_meets ed h keypair _ rfl)

variable (p) in
theorem local_saveAccountId (toml : Toml CliConfig) (hne : key ≠ path) (accountId : AccountId) :
    Local key (saveAccountId p toml path accountId) := by
  rw [saveAccountId]
  apply Local.get_bind
  intro t
  dsimp only
  generalize toml.toStringPretty _ = text
  cases text with
  | none => exact local_throw _
  | some text => exact local_write p .writeCli hne _

/-- No other key has the account id that the process derives. -/
def Distinct (ed : Ed25519) (sha256 : Bytes → Vector UInt8 32) (p : Process) (c : CliHost)
    (key : Path) (s : Mac) : Prop :=
  let pubkeyHex := (p.keypair key s.files).publicKeyHex ed
  ∀ row, s.rows.get? ((accountBody sha256 c pubkeyHex).accountId sha256) = some row →
    row.ecdsaPubkeyHex = pubkeyHex

theorem utf8ByteSize_accountId (body : RegisterAccountBody) :
    (body.accountId sha256).utf8ByteSize = 24 := by
  rw [utf8ByteSize_eq, RegisterAccountBody.accountId, deriveAccountId, Hex.length_utf8_encode,
    List.length_take, Vector.length_toList]
  rfl

/-- A request that is lost changes nothing. -/
theorem fetch_keysKept (r : AccountRequest) (d : Dispatch) (rows : Rows) :
    KeysKept rows (Dashboard.fetch sha256 timeText r d rows).2 := by
  obtain ⟨fate, m⟩ := d
  cases fate with
  | answered => exact serve_keysKept r
  | lost => exact .refl rows
  | unanswered => exact serve_keysKept r

theorem fetch_answered {r : AccountRequest} {d : Dispatch} {rows : Rows} {reply : Reply}
    (hreply : (Dashboard.fetch sha256 timeText r d rows).1 = some reply) :
    Dashboard.fetch sha256 timeText r d rows = (some (r.serve sha256 timeText d.moment rows).1,
      (r.serve sha256 timeText d.moment rows).2) ∧
      reply = (r.serve sha256 timeText d.moment rows).1 := by
  obtain ⟨fate, m⟩ := d
  cases fate with
  | answered => exact ⟨rfl, (Option.some.inj hreply).symm⟩
  | lost => cases hreply
  | unanswered => cases hreply

/-- What an answered account id says of the key file and of the table. -/
structure Answers (ed : Ed25519) (sha256 : Bytes → Vector UInt8 32) (p : Process) (c : CliHost)
    (key : Path) (s t : Mac) (accountId : AccountId) : Prop where
  bears : ∃ pubkeyHex, Bears ed key t.files pubkeyHex
  owns : Distinct ed sha256 p c key s → Owns ed key t accountId

theorem Later.answers {accountId : AccountId} (hlater : Later ed key t u)
    (h : Answers ed sha256 p c key s t accountId) : Answers ed sha256 p c key s u accountId :=
  ⟨h.bears.imp fun _ => hlater.bears, fun hdistinct => hlater.owns (h.owns hdistinct)⟩

variable (timeText) in
/-- An account that is answered is the one of the key. -/
theorem postRegistration_meets {keypair : NmKeypair} (d : Dispatch)
    (hgiven : keypair = p.keypair key s.files) :
    Meets (fun t => Aside key s t ∧ t.files.read key = some keypair.seed.toList)
      (postRegistration sha256 timeText d (accountBody sha256 c (keypair.publicKeyHex ed)))
      fun result t => Later ed key s t ∧ ∀ reply accountId, result = .ok reply →
        accountIdOf reply = .ok accountId → Answers ed sha256 p c key s t accountId := by
  rintro t ⟨haside, hread⟩
  let body := accountBody sha256 c (keypair.publicKeyHex ed)
  let sent := Dashboard.fetch sha256 timeText (.registerAccount body) d t.rows
  have hkept : KeysKept t.rows sent.2 := fetch_keysKept _ d t.rows
  have hlater : Later ed key s { t with rows := sent.2 } :=
    (haside.later : Later ed key s t).trans ⟨fun _ => id, hkept, fun _ => .inl⟩
  dsimp only [Fallible.outcome, postRegistration, ExceptT.run, ExceptT.mk, StateT.run]
  refine ⟨hlater, fun reply accountId hok hanswered => ?_⟩
  cases hreply : sent.1 with
  | none =>
      rw [hreply] at hok
      cases hok
  | some answer =>
      rw [hreply] at hok
      cases hok
      obtain ⟨hsent, rfl⟩ := fetch_answered hreply
      obtain ⟨rfl, hstored⟩ := accountIdOf_serve hanswered
      have hpubkey : body.ecdsaPubkeyHex = keypair.publicKeyHex ed := rfl
      refine ⟨⟨_, keypair, hread, rfl⟩, fun hdistinct => ?_⟩
      obtain ⟨row, hrow, hkey⟩ := hstored fun row hrow => by
        rw [haside.rows] at hrow
        rw [hpubkey, hgiven]
        apply hdistinct row
        rw [← hgiven]
        exact hrow
      refine ⟨utf8ByteSize_accountId body, row, ?_, keypair, hread, hkey⟩
      show sent.2.get? _ = _
      rw [show sent = _ from hsent]
      exact hrow

variable (timeText) in
theorem ensureAccount_meets (toml : Toml CliConfig) {cfgDir : Path} (d : Dispatch)
    (hkey : cfgDir ++ ["identity.key"] = key) :
    Meets (fun t => t = s) (ensureAccount ed sha256 timeText p c toml cfgDir d) fun result t =>
      Later ed key s t ∧
        ∀ accountId, result = .ok accountId → Answers ed sha256 p c key s t accountId := by
  have hne : key ≠ cfgDir ++ ["cli.toml"] := by
    rw [← hkey]
    simp
  rw [ensureAccount, hkey]
  refine Meets.bind (Q := fun _ t => Aside key s t ∧ t.files.read key = s.files.read key) ?_
    (fun _ => ?_) fun e t ht => ⟨ht.1.later, nofun⟩
  · rintro t rfl
    obtain ⟨files, houtcome, hreads⟩ := createDirAll_reads p .accountDir cfgDir t
    show Aside key t ((p.createDirAll .accountDir cfgDir).outcome t).2 ∧
      ((p.createDirAll .accountDir cfgDir).outcome t).2.files.read key = t.files.read key
    rw [houtcome]
    exact ⟨⟨fun content hread => (hreads key).trans hread, rfl, rfl⟩, hreads key⟩
  refine Meets.bind (Q := fun result t => Aside key s t ∧
    ∀ keypair, result = .ok keypair → HasKeypair p key s t keypair) ?_ (fun keypair => ?_)
    fun e t ht => ⟨ht.1.later, nofun⟩
  · rintro t ⟨haside, hsame⟩
    obtain ⟨haside', hkeypair⟩ := loadOrGenerate_meets p key t _ _ t rfl
    refine ⟨haside.trans haside', fun keypair hok => ?_⟩
    have hgiven := (hkeypair keypair hok).given
    rw [Process.keypair, hsame] at hgiven
    exact ⟨hgiven, (hkeypair keypair hok).stored⟩
  by_cases hgiven : keypair = p.keypair key s.files
  swap
  · exact fun t ht => absurd (ht.2 keypair rfl).given hgiven
  refine (Meets.weaken (fun t ht => ⟨ht.1, (ht.2 keypair rfl).stored⟩)
    (postRegistration_meets timeText d hgiven)).bind (fun reply => ?_)
    fun e t ht => ⟨ht.1, nofun⟩
  refine Meets.bind (Q := fun result t => Later ed key s t ∧
    ∀ accountId, result = .ok accountId → Answers ed sha256 p c key s t accountId) ?_
    (fun accountId => ?_) fun e t ht => ⟨ht.1, nofun⟩
  · exact Meets.of_ofExcept fun t ht => ⟨ht.1, fun accountId => ht.2 reply accountId rfl⟩
  refine Meets.bind (Q := fun _ t => Later ed key s t ∧ Answers ed sha256 p c key s t accountId) ?_
    (fun _ => ?_) fun e t ht => ⟨ht.1, nofun⟩
  · rintro t ⟨hlater, hanswers⟩
    have haside := local_saveAccountId p toml hne accountId t t (.refl t)
    exact ⟨hlater.trans haside.later, haside.later.answers (hanswers accountId rfl)⟩
  · refine Meets.of_pure fun t ht => ⟨ht.1, fun answered hok => ?_⟩
    cases hok
    exact ht.2

/-! ### Histories -/

/-- A machine, with the account ids that `ensure_account` has answered on it. -/
structure History where
  mac : Mac
  accounts : List AccountId

inductive Event where
  | agent (p : Process) (h : AgentHost)
  | account (p : Process) (c : CliHost) (d : Dispatch)
  /-- A request from elsewhere. -/
  | other (r : AccountRequest) (m : Moment)

section History

variable (ed : Ed25519) (sha256 : Bytes → Vector UInt8 32) (timeText : Time → String)
  (agentToml : Toml AgentConfig) (cliToml : Toml CliConfig) (cfgDir : Path)

def History.step (s : History) : Event → History
  | .agent p h =>
      { s with mac := ((agentMain ed p h agentToml (cfgDir ++ ["agent.toml"])).outcome s.mac).2 }
  | .account p c d =>
      let res := (ensureAccount ed sha256 timeText p c cliToml cfgDir d).outcome s.mac
      ⟨res.2, s.accounts ++ res.1.toOption.toList⟩
  | .other r m => { s with mac := { s.mac with rows := (r.serve sha256 timeText m s.mac.rows).2 } }

/-- No other key has the account id that is asked for. -/
def History.NoCollision (s : History) : Event → Prop
  | .account p c _ => Distinct ed sha256 p c (cfgDir ++ ["identity.key"]) s.mac
  | _ => True

end History

variable {agentToml : Toml AgentConfig} {cliToml : Toml CliConfig} {cfgDir : Path}

variable (ed sha256 timeText agentToml cliToml cfgDir) in
/-- What every event leaves, and what it may answer. -/
theorem step_later (s : History) (e : Event) :
    Later ed (cfgDir ++ ["identity.key"]) s.mac
        (s.step ed sha256 timeText agentToml cliToml cfgDir e).mac ∧
      ∀ accountId ∈ (s.step ed sha256 timeText agentToml cliToml cfgDir e).accounts,
        accountId ∈ s.accounts ∨
          (∃ pubkeyHex, Bears ed (cfgDir ++ ["identity.key"])
            (s.step ed sha256 timeText agentToml cliToml cfgDir e).mac.files pubkeyHex) ∧
          (s.NoCollision ed sha256 cfgDir e → Owns ed (cfgDir ++ ["identity.key"])
            (s.step ed sha256 timeText agentToml cliToml cfgDir e).mac accountId) := by
  cases e with
  | agent p h =>
      have hkey : (cfgDir ++ ["agent.toml"]).dropLast ++ ["identity.key"] =
          cfgDir ++ ["identity.key"] := by rw [List.dropLast_concat]
      exact ⟨agentMain_meets ed p s.mac h agentToml hkey (by simp) s.mac rfl,
        fun accountId hmem => .inl hmem⟩
  | account p c d =>
      obtain ⟨hlater, hanswers⟩ := ensureAccount_meets timeText cliToml d rfl s.mac rfl
      refine ⟨hlater, fun accountId hmem => ?_⟩
      obtain hbefore | hnew := List.mem_append.mp hmem
      · exact .inl hbefore
      · cases hresult : ((ensureAccount ed sha256 timeText p c cliToml cfgDir d).outcome s.mac).1 with
        | error e =>
            rw [hresult] at hnew
            cases hnew
        | ok answered =>
            rw [hresult] at hnew
            obtain rfl := List.mem_singleton.mp hnew
            have hanswer := hanswers accountId hresult
            exact .inr ⟨hanswer.bears, hanswer.owns⟩
  | other r m =>
      exact ⟨⟨fun _ => id, serve_keysKept r, fun _ => .inl⟩, fun accountId hmem => .inl hmem⟩

/-- The accounts that were answered on a machine are all its own. -/
structure Own (ed : Ed25519) (key : Path) (s : History) : Prop where
  unique : UniqueKeys s.mac.rows
  registrations : ∀ req ∈ s.mac.registrations, Bears ed key s.mac.files req.providerId
  accounts : ∀ accountId ∈ s.accounts, Owns ed key s.mac accountId

theorem step_own (s : History) (e : Event) (hdistinct : s.NoCollision ed sha256 cfgDir e)
    (hown : Own ed (cfgDir ++ ["identity.key"]) s) :
    Own ed (cfgDir ++ ["identity.key"]) (s.step ed sha256 timeText agentToml cliToml cfgDir e) := by
  obtain ⟨hlater, haccounts⟩ := step_later sha256 timeText ed agentToml cliToml cfgDir s e
  refine ⟨hlater.rows.unique hown.unique, fun req hreq => ?_, fun accountId hmem => ?_⟩
  · obtain hbefore | hbears := hlater.registrations req hreq
    · exact hlater.bears (hown.registrations req hbefore)
    · exact hbears
  · obtain hbefore | ⟨-, howns⟩ := haccounts accountId hmem
    · exact hlater.owns (hown.accounts accountId hbefore)
    · exact howns hdistinct

/-- In every history of a machine it registers as one provider, and it is given one account, whose id
is not the id of the provider and whose key is. -/
theorem one_identity (ed : Ed25519) (sha256 : Bytes → Vector UInt8 32) (timeText : Time → String)
    (agentToml : Toml AgentConfig) (cliToml : Toml CliConfig) (cfgDir : Path) (files : FileSystem)
    (rows : Rows) (hunique : UniqueKeys rows) (events : List Event)
    (hrun : Along (History.step ed sha256 timeText agentToml cliToml cfgDir)
      (History.NoCollision ed sha256 cfgDir) ⟨⟨files, rows, []⟩, []⟩ events) :
    let after := events.foldl (History.step ed sha256 timeText agentToml cliToml cfgDir)
      ⟨⟨files, rows, []⟩, []⟩
    (∀ req ∈ after.mac.registrations, ∀ req' ∈ after.mac.registrations,
      req.providerId = req'.providerId) ∧
    (∀ accountId ∈ after.accounts, ∀ accountId' ∈ after.accounts, accountId = accountId') ∧
    ∀ req ∈ after.mac.registrations, ∀ accountId ∈ after.accounts,
      accountId ≠ req.providerId ∧
        ∃ row, after.mac.rows.get? accountId = some row ∧ row.ecdsaPubkeyHex = req.providerId := by
  intro after
  have hown : Own ed (cfgDir ++ ["identity.key"]) after :=
    hrun.preserves step_own ⟨hunique, nofun, nofun⟩
  refine ⟨?_, ?_, ?_⟩
  · intro req hreq req' hreq'
    exact (hown.registrations req hreq).unique (hown.registrations req' hreq')
  · intro accountId hmem accountId' hmem'
    obtain ⟨-, row, hrow, hbears⟩ := hown.accounts accountId hmem
    obtain ⟨-, row', hrow', hbears'⟩ := hown.accounts accountId' hmem'
    exact hown.unique accountId accountId' row row' hrow hrow' (hbears.unique hbears')
  · intro req hreq accountId hmem
    have hregistered := hown.registrations req hreq
    obtain ⟨hsize, row, hrow, hbears⟩ := hown.accounts accountId hmem
    refine ⟨fun hsame => ?_, row, hrow, hbears.unique hregistered⟩
    rw [hsame, hregistered.utf8ByteSize] at hsize
    cases hsize

/-! ### A sample history -/

theorem distinct_of_none {c : CliHost}
    (hnone : s.rows.get? ((accountBody sha256 c ((p.keypair key s.files).publicKeyHex ed)).accountId
      sha256) = none) : Distinct ed sha256 p c key s := by
  intro row hrow
  rw [hnone] at hrow
  cases hrow

def sampleEd : Ed25519 := ⟨id, fun _ _ => .replicate 64 0, fun _ => true, fun _ _ _ => true⟩

def bareDisk : FileSystem where
  node
    | [] => some .dir
    | _ :: _ => none
  root := rfl
  parent q name hsome := by
    cases q with
    | nil => cases hsome
    | cons _ _ => cases hsome

/-- The mode of the key file cannot be set. -/
def refused : Process := ⟨fun name => name = .chmodKey, fun _ => none, .replicate 32 1⟩

/-- The disk is full. -/
def full : Process := ⟨fun name => name = .writeKey, fun _ => some 5, .replicate 32 1⟩

def granted : Process := ⟨fun _ => false, fun _ => none, .replicate 32 2⟩

def sampleMac : AgentHost where
  nmRegion := none
  chip := .ok ⟨"Apple M2", 16, 10, "3", "C02"⟩
  importable name := name = "mlx"
  llamaCli := false
  reachable _ := true
  answer := some ⟨"ok", "", ""⟩

def sampleStep : History → Event → History :=
  History.step sampleEd (fun _ => .replicate 32 0) (fun _ => "")
    ⟨fun _ => .error "", fun _ => some ""⟩ ⟨fun _ => .error "", fun _ => some ""⟩ ["hatch"]

/-- `ensure_account` in a process, which asks the coordinator at a time. -/
def sampleAccount (p : Process) (now : Time) : Event :=
  .account p ⟨none, none, none⟩ ⟨.answered, now, fun _ => false⟩

def sampleEvents : List Event :=
  [sampleAccount refused 0, sampleAccount granted 1, .agent granted sampleMac]

theorem one_identity_sample :
    let after := sampleEvents.foldl sampleStep ⟨⟨bareDisk, .empty, []⟩, []⟩
    after.accounts.length = 1 ∧ after.mac.registrations.length = 1 ∧
      ∀ req ∈ after.mac.registrations, ∀ accountId ∈ after.accounts, accountId ≠ req.providerId ∧
        ∃ row, after.mac.rows.get? accountId = some row ∧ row.ecdsaPubkeyHex = req.providerId :=
  ⟨by decide +kernel, by decide +kernel,
    (one_identity sampleEd (fun _ => .replicate 32 0) (fun _ => "") _ _ ["hatch"] bareDisk .empty
      (fun _ _ _ _ hrow => by cases hrow) sampleEvents
      ⟨distinct_of_none (by decide +kernel), distinct_of_none (by decide +kernel), trivial,
        trivial⟩).2.2⟩

/-! ### A key file that was cut short -/

theorem not_bears {content : Bytes} {files : FileSystem} {text : String}
    (hread : files.read key = some content) (hshort : content.length ≠ 32) :
    ¬Bears ed key files text := by
  rintro ⟨keypair, hkeypair, -⟩
  rw [hread, Option.some.injEq] at hkeypair
  rw [hkeypair, Vector.length_toList] at hshort
  exact hshort rfl

/-- Once a write has left a key file of another length, no program repairs it: the machine never
registers again, and is given no account. -/
theorem cut_key_is_final (ed : Ed25519) (sha256 : Bytes → Vector UInt8 32) (timeText : Time → String)
    (agentToml : Toml AgentConfig) (cliToml : Toml CliConfig) (cfgDir : Path) (s : History)
    {content : Bytes} (hread : s.mac.files.read (cfgDir ++ ["identity.key"]) = some content)
    (hshort : content.length ≠ 32) (events : List Event) :
    let after := events.foldl (History.step ed sha256 timeText agentToml cliToml cfgDir) s
    after.mac.files.read (cfgDir ++ ["identity.key"]) = some content ∧
      (∀ req ∈ after.mac.registrations, req ∈ s.mac.registrations) ∧
      ∀ accountId ∈ after.accounts, accountId ∈ s.accounts := by
  induction events generalizing s with
  | nil => exact ⟨hread, fun _ => id, fun _ => id⟩
  | cons e events ih =>
      obtain ⟨hlater, haccounts⟩ := step_later sha256 timeText ed agentToml cliToml cfgDir s e
      have hkept := hlater.file content hread
      obtain ⟨hfile, hregistrations, hanswered⟩ := ih _ hkept
      refine ⟨hfile, fun req hreq => ?_, fun accountId hmem => ?_⟩
      · exact (hlater.registrations req (hregistrations req hreq)).resolve_right
          (not_bears hkept hshort)
      · refine (haccounts accountId (hanswered accountId hmem)).resolve_right ?_
        rintro ⟨⟨pubkeyHex, hbears⟩, -⟩
        exact not_bears hkept hshort hbears

/-- The disk was full when the key was written. -/
def cutShort : History := sampleStep ⟨⟨bareDisk, .empty, []⟩, []⟩ (sampleAccount full 0)

theorem cut_key_is_final_sample :
    (sampleEvents.foldl sampleStep cutShort).mac.files.read ["hatch", "identity.key"] =
        some (List.replicate 5 1) ∧
      (sampleEvents.foldl sampleStep cutShort).mac.registrations = [] := by
  have hread : cutShort.mac.files.read (["hatch"] ++ ["identity.key"]) =
      some (List.replicate 5 1) := by decide +kernel
  have hnone : cutShort.mac.registrations = [] := List.length_eq_zero_iff.mp (by decide +kernel)
  obtain ⟨hfile, hregistrations, -⟩ := cut_key_is_final sampleEd (fun _ => .replicate 32 0)
    (fun _ => "") _ _ ["hatch"] cutShort hread (by decide) sampleEvents
  rw [hnone] at hregistrations
  exact ⟨hfile, List.eq_nil_iff_forall_not_mem.mpr fun req hreq =>
    List.not_mem_nil (hregistrations req hreq)⟩

end NeuralMesh.Identity
