import NeuralMesh.Base.Http

/-!
# The dashboard's Stripe webhook

`dashboard/src/app/api/stripe/webhook/route.ts`. Stripe's library checks the signature and parses the
event; that is a parameter.
-/

namespace NeuralMesh.Dashboard

/-! ### `parseFloat` -/

/-- The exponent at the head of the text. -/
def exponent : List Char → Int
  | e :: rest =>
      if e = 'e' ∨ e = 'E' then
        let (negative, rest) :=
          match rest with
          | '-' :: rest => (true, rest)
          | '+' :: rest => (false, rest)
          | rest => (false, rest)
        let n := rest.takeWhile Char.isDigit |> String.ofList |>.toNat?.getD 0
        if negative then -n else n
      else 0
  | [] => 0

/-- The longest decimal at the head of the text; `NaN` and the infinities, which JSON writes as
`null`, are `none`. -/
def parseFloat (text : String) : Option ℚ :=
  let text := text.toList.dropWhile Char.isWhitespace
  let (negative, text) :=
    match text with
    | '-' :: rest => (true, rest)
    | '+' :: rest => (false, rest)
    | text => (false, text)
  let whole := text.takeWhile Char.isDigit
  let (fraction, rest) :=
    match text.dropWhile Char.isDigit with
    | '.' :: rest => (rest.takeWhile Char.isDigit, rest.dropWhile Char.isDigit)
    | rest => ([], rest)
  match (String.ofList (whole ++ fraction)).toNat? with
  | none => none
  | some digits =>
      let x := (digits : ℚ) * (10 : ℚ) ^ (exponent rest - fraction.length)
      some (if negative then -x else x)

/-! ### The webhook -/

/-- What the webhook reads of a `Stripe.Checkout.Session`. -/
structure Session where
  id : String
  paymentStatus : String
  metadata : Option (List (String × String))
  paymentIntent : Json
  amountTotal : Option Int

/-- A key of `session.metadata ?? {}`. -/
def Session.meta (session : Session) (key : String) : Option String :=
  (session.metadata.getD []).lookup key

/-- An empty string is as good as none. -/
def truthy (text : Option String) : Option String := text.filter fun t => t ≠ ""

inductive StripeEvent where
  | checkoutSessionCompleted (session : Session)
  | checkoutSessionAsyncPaymentSucceeded (session : Session)
  | other (type : String)

structure Env where
  /-- `INTERNAL_API_SECRET` -/
  internalApiSecret : Option String
  coordinatorUrl : Option String
  stripeWebhookSecret : Option String

structure WebhookReply where
  status : Nat
  body : Json

/-- The webhook answers, or asks the coordinator first; `creditRes.ok` says how it goes on. -/
inductive Webhook where
  | reply (r : WebhookReply)
  | fetch (request : HttpRequest) (next : Bool → WebhookReply)

/-- How the request to the coordinator ends. -/
inductive CreditOutcome where
  /-- `creditRes.ok` -/
  | answered (ok : Bool)
  | networkError
  deriving DecidableEq, Repr

/-- What Stripe gets; an exception leaves the route, and Next.js answers for it. -/
def Webhook.answer : Webhook → CreditOutcome → WebhookReply
  | .reply r, _ => r
  | .fetch _ next, .answered ok => next ok
  | .fetch _ _, .networkError => ⟨500, .null⟩

/-- Stripe takes any 2xx for an acknowledgement. -/
def WebhookReply.Acknowledges (r : WebhookReply) : Prop := 200 ≤ r.status ∧ r.status < 300

instance (r : WebhookReply) : Decidable r.Acknowledges := inferInstanceAs (Decidable (_ ∧ _))

def received : WebhookReply := ⟨200, .obj [("received", .bool true)]⟩

def failure (status : Nat) (error : String) : WebhookReply := ⟨status, .obj [("error", .str error)]⟩

/-- `(session.amount_total ?? 0) / 100` -/
def Session.amountMyr (session : Session) : ℚ := (session.amountTotal.getD 0 : ℚ) / 100

/-- The request to `stripe_credit`, of either event. -/
def creditRequest (env : Env) (body : Json) : HttpRequest where
  url := env.coordinatorUrl.getD "http://localhost:8080" ++ "/api/v1/ledger/stripe-credit"
  headers := [
    ("Content-Type", "application/json"),
    ("X-Internal-Secret", env.internalApiSecret.getD "")]
  body

def onCompleted (env : Env) (session : Session) : Webhook :=
  if session.paymentStatus ≠ "paid" then .reply received
  else
    match truthy (session.meta "account_id"), truthy (session.meta "amount_nmc") with
    | some accountId, some amountNmc =>
        .fetch
          (creditRequest env (.obj [
            ("account_id", .str accountId),
            ("amount_nmc", .ofOption .num (parseFloat amountNmc)),
            ("stripe_session_id", .str session.id),
            ("stripe_payment_intent", session.paymentIntent),
            ("amount_myr", .num session.amountMyr),
            ("country", .str ((session.meta "country").getD "unknown")),
            ("description", .str ("Stripe deposit — session " ++ session.id))]))
          fun ok => if ok then received else failure 500 "Credit failed"
    | _, _ => .reply (failure 400 "Missing metadata")

def onAsyncPaymentSucceeded (env : Env) (session : Session) : Webhook :=
  match truthy (session.meta "account_id"), truthy (session.meta "amount_nmc") with
  | some accountId, some amountNmc =>
      .fetch
        (creditRequest env (.obj [
          ("account_id", .str accountId),
          ("amount_nmc", .ofOption .num (parseFloat amountNmc)),
          ("stripe_session_id", .str session.id),
          ("amount_myr", .num session.amountMyr),
          ("country", .str ((session.meta "country").getD "unknown")),
          ("description", .str ("Stripe FPX deposit — session " ++ session.id))]))
        -- the answer is not looked at
        fun _ => received
  | _, _ => .reply received

def post (constructEvent : String → String → Option String → Option StripeEvent) (env : Env)
    (body : String) (sig : Option String) : Webhook :=
  match truthy sig with
  | none => .reply (failure 400 "Missing stripe-signature")
  | some sig =>
      match constructEvent body sig env.stripeWebhookSecret with
      | none => .reply (failure 400 "Invalid signature")
      | some (.checkoutSessionCompleted session) => onCompleted env session
      | some (.checkoutSessionAsyncPaymentSucceeded session) => onAsyncPaymentSucceeded env session
      | some (.other _) => .reply received

end NeuralMesh.Dashboard
