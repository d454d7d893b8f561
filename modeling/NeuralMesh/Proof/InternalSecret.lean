import NeuralMesh.Coordinator.Rest
import NeuralMesh.Dashboard.Webhook
import NeuralMesh.Ledger.OnChain
import NeuralMesh.System.Operation

/-!
# Who holds the internal secret

Three places should agree on `INTERNAL_SECRET`: `stripe_credit` of the coordinator, the on-chain
endpoints of the ledger and the dashboard's webhook. Only the ledger refuses an empty secret, and the
webhook presents its secret in a header that nobody reads.
-/

namespace NeuralMesh

open Coordinator Program

/-- Some store is not left as it was. -/
def Program.Changes {Q : Type} {A : Q → Type} {α σ : Type} (exec : (q : Q) → σ → Option (A q × σ))
    (p : Program A α) : Prop :=
  ∃ s, (p.run exec s).2 ≠ s

/-! ### The endpoint of the coordinator -/

/-- `Json<StripeCreditBody>`; other members are ignored. -/
def Coordinator.StripeCreditBody.decode (body : Json) : Option StripeCreditBody := do
  return {
    accountId := ← (← body.get? "account_id").asStr
    amountNmc := ← (← body.get? "amount_nmc").asNum
    stripeSessionId := ← (← body.get? "stripe_session_id").asStr
    amountMyr := ← (← body.get? "amount_myr").asNum }

/-- The `authorization` header of a request, where it is text. -/
def HttpRequest.authorization (r : HttpRequest) : Option String :=
  (r.header "authorization").bind HttpRequest.headerText

/-- The handler of a request whose body is one. -/
def stripeCreditOf (config : Config) (txId : TxId) (r : HttpRequest) : Option Handler :=
  (StripeCreditBody.decode r.body).map (stripeCredit config r.authorization txId)

/-! ### The three parts -/

/-- The secret of the environment, unset or not. -/
abbrev Secret := Option String

/-- `stripe_credit` changes the database only for a request with the secret, which is not empty. -/
def StripeCreditGuarded (secret : Secret) : Prop :=
  ∀ (oracleEnabled : Bool) (txId : TxId) (r : HttpRequest),
    ∀ handler ∈ stripeCreditOf ⟨secret, oracleEnabled⟩ txId r, handler.Changes Action.exec →
      secret.getD "" ≠ "" ∧ r.authorization = some ("Bearer " ++ secret.getD "")

/-- The same of the two endpoints of the ledger and the chain. -/
def LedgerGuarded (secret : Secret) : Prop :=
  ∀ (crypto : Ledger.Crypto) (oracle : Ledger.ArbitrumOracle),
    (∀ body : Ledger.OnChainReleaseBody,
      (Ledger.onChainRelease secret crypto oracle body).Changes Ledger.Rpc.exec →
        secret.getD "" ≠ "" ∧ body.secret = secret.getD "") ∧
    ∀ body : Ledger.OnChainCancelBody,
      (Ledger.onChainCancel secret crypto oracle body).Changes Ledger.Rpc.exec →
        secret.getD "" ≠ "" ∧ body.secret = secret.getD ""

/-- With the secret on both sides, whatever the webhook asks the coordinator is not turned away. -/
def WebhookAccepted (secret : Secret) : Prop :=
  ∀ constructEvent env body sig request next,
    env.internalApiSecret = secret →
    Dashboard.post constructEvent env body sig = .fetch request next →
    ∀ (oracleEnabled : Bool) (txId : TxId),
      ∃ handler ∈ stripeCreditOf ⟨secret, oracleEnabled⟩ txId request,
        ∀ s, (handler.run Action.exec s).1.status ≠ .unauthorized

/-- The servers implement one predicate, and the client satisfies it. -/
structure OnePredicate (secret : Secret) : Prop where
  stripeCredit : StripeCreditGuarded secret
  ledger : LedgerGuarded secret
  webhook : secret.getD "" ≠ "" → WebhookAccepted secret

/-! ### The ledger -/

theorem verifySecret_iff {secret : Secret} {provided : String} :
    Ledger.verifySecret secret provided ↔ secret.getD "" ≠ "" ∧ provided = secret.getD "" := by
  simp [Ledger.verifySecret]

theorem verifySecret_eq_false {secret : Secret} {provided : String}
    (hnot : ¬ (secret.getD "" ≠ "" ∧ provided = secret.getD "")) :
    Ledger.verifySecret secret provided = false :=
  Bool.eq_false_iff.mpr fun hverified => hnot (verifySecret_iff.mp hverified)

theorem not_changes_done {Q : Type} {A : Q → Type} {α σ : Type}
    {exec : (q : Q) → σ → Option (A q × σ)} (result : α) :
    ¬ (done result : Program A α).Changes exec := by
  rintro ⟨s, hchanged⟩
  exact hchanged rfl

theorem ledger_guarded (secret : Secret) : LedgerGuarded secret := by
  intro crypto oracle
  constructor
  · intro body hchanges
    by_contra hnot
    rw [Ledger.onChainRelease, verifySecret_eq_false hnot] at hchanges
    exact not_changes_done _ hchanges
  · intro body hchanges
    by_contra hnot
    rw [Ledger.onChainCancel, verifySecret_eq_false hnot] at hchanges
    exact not_changes_done _ hchanges

/-! ### The coordinator -/

theorem stripPrefix_eq_some {start text rest : String} (h : stripPrefix start text = some rest) :
    text = start ++ rest := by
  rw [stripPrefix] at h
  split at h
  · rename_i hprefix
    obtain ⟨tail, htail⟩ := List.isPrefixOf_iff_prefix.mp hprefix
    rw [← htail, List.drop_left] at h
    rw [← Option.some.inj h, ← String.toList_inj, String.toList_append, String.toList_ofList, htail]
  · cases h

/-- A token that is not empty is what follows `Bearer `. -/
theorem bearerToken_eq {authorization : Option String} {token : String} (hne : token ≠ "")
    (h : bearerToken authorization = token) : authorization = some ("Bearer " ++ token) := by
  cases authorization with
  | none => exact absurd h.symm hne
  | some text =>
      rw [bearerToken, Option.bind_some] at h
      cases hstrip : stripPrefix "Bearer " text with
      | none =>
          rw [hstrip] at h
          exact absurd h.symm hne
      | some rest =>
          rw [hstrip] at h
          rw [stripPrefix_eq_some hstrip, ← h]
          rfl

theorem stripeCredit_of_other {config : Config} {authorization : Option String} {txId : TxId}
    {body : StripeCreditBody} (hother : bearerToken authorization ≠ config.internalSecret.getD "") :
    stripeCredit config authorization txId body = done (.error .unauthorized) := if_pos hother

/-- A request without a header that credits an account. -/
def bareCredit : HttpRequest where
  url := "http://localhost:8080/api/v1/ledger/stripe-credit"
  headers := [("Content-Type", "application/json")]
  body := .obj [
    ("account_id", .str "mallory"),
    ("amount_nmc", .num 1000),
    ("stripe_session_id", .str "cs_1"),
    ("amount_myr", .num 0)]

/-- What `bareCredit` decodes to. -/
def bareBody : StripeCreditBody := ⟨"mallory", 1000, "cs_1", 0⟩

theorem bareCredit_changes {secret : Secret} (hempty : secret.getD "" = "") :
    ∃ handler ∈ stripeCreditOf ⟨secret, false⟩ "tx" bareCredit, handler.Changes Action.exec := by
  have hnone : bareCredit.authorization = none := by decide +kernel
  refine ⟨stripeCredit ⟨secret, false⟩ bareCredit.authorization "tx" bareBody, rfl, Db.init, ?_⟩
  rw [hnone]
  intro hsame
  have hcredited : (((stripeCredit ⟨some "", false⟩ none "tx" bareBody).run Action.exec
      Db.init).2.creditAccounts.get? "mallory").isSome := by decide +kernel
  have hconfig : stripeCredit ⟨secret, false⟩ none "tx" bareBody =
      stripeCredit ⟨some "", false⟩ none "tx" bareBody := by
    rw [stripeCredit, stripeCredit]
    simp only [hempty, Option.getD_some]
  rw [← hconfig, hsame] at hcredited
  cases hcredited

/-- The coordinator guards its endpoint exactly when there is a secret to present. -/
theorem stripeCredit_guarded_iff (secret : Secret) :
    StripeCreditGuarded secret ↔ secret.getD "" ≠ "" := by
  constructor
  · intro hguarded hempty
    obtain ⟨handler, hhandler, hchanges⟩ := bareCredit_changes hempty
    exact (hguarded false "tx" bareCredit handler hhandler hchanges).1 hempty
  · intro hne oracleEnabled txId r handler hhandler hchanges
    refine ⟨hne, ?_⟩
    obtain ⟨body, _, rfl⟩ := Option.map_eq_some_iff.mp hhandler
    by_contra hother
    rw [stripeCredit_of_other fun heq => hother (bearerToken_eq hne heq)] at hchanges
    exact not_changes_done _ hchanges

/-! ### The dashboard -/

section Webhook

variable {constructEvent : String → String → Option String → Option Dashboard.StripeEvent}
  {env : Dashboard.Env} {body : String} {sig : Option String} {request : HttpRequest}
  {next : Bool → Dashboard.WebhookReply}

theorem onCompleted_fetch {session : Dashboard.Session}
    (hfetch : Dashboard.onCompleted env session = .fetch request next) :
    ∃ json, request = Dashboard.creditRequest env json := by
  rw [Dashboard.onCompleted] at hfetch
  split at hfetch
  · cases hfetch
  split at hfetch
  · exact ⟨_, (Dashboard.Webhook.fetch.inj hfetch).1.symm⟩
  · cases hfetch

theorem onAsyncPaymentSucceeded_fetch {session : Dashboard.Session}
    (hfetch : Dashboard.onAsyncPaymentSucceeded env session = .fetch request next) :
    ∃ json, request = Dashboard.creditRequest env json := by
  rw [Dashboard.onAsyncPaymentSucceeded] at hfetch
  split at hfetch
  · exact ⟨_, (Dashboard.Webhook.fetch.inj hfetch).1.symm⟩
  · cases hfetch

/-- Whatever the webhook sends is a request to credit, with the same headers. -/
theorem post_fetch (hpost : Dashboard.post constructEvent env body sig = .fetch request next) :
    ∃ json, request = Dashboard.creditRequest env json := by
  rw [Dashboard.post] at hpost
  split at hpost
  · cases hpost
  split at hpost
  · cases hpost
  · exact onCompleted_fetch hpost
  · exact onAsyncPaymentSucceeded_fetch hpost
  · cases hpost

theorem creditRequest_authorization (env : Dashboard.Env) (json : Json) :
    (Dashboard.creditRequest env json).authorization = none := by
  have hnames : ("Content-Type".toLower = "authorization") = False ∧
      ("X-Internal-Secret".toLower = "authorization") = False := by decide +kernel
  simp [HttpRequest.authorization, HttpRequest.header, Dashboard.creditRequest, hnames]

/-- Where the coordinator has a secret, it turns away all that the webhook sends. -/
theorem webhook_unauthorized {config : Config} (hne : config.internalSecret.getD "" ≠ "")
    (hpost : Dashboard.post constructEvent env body sig = .fetch request next) {txId : TxId} :
    ∀ handler ∈ stripeCreditOf config txId request, handler = done (.error .unauthorized) := by
  intro handler hhandler
  obtain ⟨json, rfl⟩ := post_fetch hpost
  obtain ⟨decoded, _, rfl⟩ := Option.map_eq_some_iff.mp hhandler
  apply stripeCredit_of_other
  rw [creditRequest_authorization]
  exact hne.symm

end Webhook

/-- A paid session of alice. -/
def paidSession : Dashboard.Session where
  id := "cs_1"
  paymentStatus := "paid"
  metadata := some [("account_id", "alice"), ("amount_nmc", "100")]
  paymentIntent := .null
  amountTotal := some 5000

theorem webhook_not_accepted {secret : Secret} (hne : secret.getD "" ≠ "") :
    ¬ WebhookAccepted secret := by
  intro haccepted
  let env : Dashboard.Env := ⟨secret, none, none⟩
  obtain ⟨request, next, hfetch⟩ : ∃ request next,
      Dashboard.post (fun _ _ _ => some (.checkoutSessionCompleted paidSession)) env "" (some "sig") =
        .fetch request next := ⟨_, _, rfl⟩
  obtain ⟨handler, hhandler, hstatus⟩ :=
    haccepted _ env "" (some "sig") request next rfl hfetch false "tx"
  rw [webhook_unauthorized hne hfetch handler hhandler] at hstatus
  exact hstatus Db.init rfl

/-- Whatever the secret is, the three do not agree: an empty one opens the coordinator's endpoint to
everybody, and any other one closes it to the dashboard. -/
theorem one_predicate_never (secret : Secret) :
    ¬ OnePredicate secret ∧ (StripeCreditGuarded secret ↔ secret.getD "" ≠ "") ∧
      LedgerGuarded secret ∧ (secret.getD "" ≠ "" → ¬ WebhookAccepted secret) := by
  refine ⟨fun hone => ?_, stripeCredit_guarded_iff secret, ledger_guarded secret,
    webhook_not_accepted⟩
  have hne := (stripeCredit_guarded_iff secret).mp hone.stripeCredit
  exact webhook_not_accepted hne (hone.webhook hne)

/-- An unset secret. -/
theorem one_predicate_unset : ¬ ∀ secret, OnePredicate secret := by
  intro hall
  exact (stripeCredit_guarded_iff none).mp (hall none).stripeCredit rfl

end NeuralMesh
