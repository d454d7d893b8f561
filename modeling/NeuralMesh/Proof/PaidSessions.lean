import NeuralMesh.Dashboard.Webhook

/-!
# Paid sessions and the answers to Stripe

Stripe delivers an event again until it is acknowledged. Of the two events that report a session
paid, one is acknowledged only when the coordinator took the credit, the other whatever the
coordinator answered.
-/

namespace NeuralMesh.Dashboard

/-- A delivery to the webhook, and how the request it makes of the coordinator ends, if it does. -/
structure Delivery where
  body : String
  sig : Option String
  outcome : CreditOutcome

/-- Both texts the credit needs are there and not empty. -/
def Session.Filled (session : Session) : Prop :=
  (truthy (session.meta "account_id")).isSome ∧ (truthy (session.meta "amount_nmc")).isSome

instance (session : Session) : Decidable session.Filled := inferInstanceAs (Decidable (_ ∧ _))

section Deliveries

variable (constructEvent : String → String → Option String → Option StripeEvent) (env : Env)

/-- The event of a delivery whose signature is right. -/
def Delivery.event? (d : Delivery) : Option StripeEvent :=
  (truthy d.sig).bind fun sig => constructEvent d.body sig env.stripeWebhookSecret

def Delivery.webhook (d : Delivery) : Webhook := post constructEvent env d.body d.sig

/-- Stripe does not deliver the event again. -/
def Delivery.Acknowledged (d : Delivery) : Prop :=
  ((d.webhook constructEvent env).answer d.outcome).Acknowledges

/-- The coordinator answered 2xx to a request to credit the session. -/
def Delivery.Credited (sessionId : String) (d : Delivery) : Prop :=
  d.outcome = .answered true ∧ ∃ request next, d.webhook constructEvent env = .fetch request next ∧
    request.body.get? "stripe_session_id" = some (.str sessionId)

/-- The session as the delivered event has it: the payment can be on its way still. -/
def Delivery.IsOf (session : Session) (d : Delivery) : Prop :=
  ∃ s : Session, s.id = session.id ∧ s.metadata = session.metadata ∧
    (d.event? constructEvent env = some (.checkoutSessionCompleted s) ∨
      d.event? constructEvent env = some (.checkoutSessionAsyncPaymentSucceeded s))

/-- The event says that the delayed payment has arrived. -/
def Delivery.IsAsync (d : Delivery) : Prop :=
  ∃ s, d.event? constructEvent env = some (.checkoutSessionAsyncPaymentSucceeded s)

/-- The event reports its session as paid. -/
def Delivery.ReportsPaid (d : Delivery) : Prop :=
  (∃ s, d.event? constructEvent env = some (.checkoutSessionCompleted s) ∧
    s.paymentStatus = "paid") ∨ d.IsAsync constructEvent env

/-- An event that reports the session paid is acknowledged only when the credit was taken, by then. -/
def NeverLost (session : Session) (deliveries : List Delivery) : Prop :=
  ∀ before d after, deliveries = before ++ d :: after → d.ReportsPaid constructEvent env →
    d.Acknowledged constructEvent env →
    ∃ e ∈ before ++ [d], e.Credited constructEvent env session.id

/-- What an event of a delayed payment may meet: never a session without the two texts, and a refusal
of the coordinator only after it took the credit. -/
structure AsyncCovered (session : Session) (deliveries : List Delivery) : Prop where
  filled : ∀ d ∈ deliveries, d.IsAsync constructEvent env → session.Filled
  refused : ∀ before d after, deliveries = before ++ d :: after → d.IsAsync constructEvent env →
    d.outcome = .answered false →
    ∃ e ∈ before, e.ReportsPaid constructEvent env ∧ e.outcome = .answered true

end Deliveries

theorem received_acknowledges : received.Acknowledges := by decide

theorem failure_not_acknowledges {status : Nat} (hstatus : 300 ≤ status) (error : String) :
    ¬ (failure status error).Acknowledges := fun h => absurd h.2 (Nat.not_lt.mpr hstatus)

/-- An exception on the way is not acknowledged. -/
theorem exception_not_acknowledges {request : HttpRequest} {next : Bool → WebhookReply} :
    ¬ ((Webhook.fetch request next).answer .networkError).Acknowledges := fun h => by
  have : (500 : Nat) < 300 := h.2
  omega

section Events

variable {constructEvent : String → String → Option String → Option StripeEvent} {env : Env}
  {session s : Session} {d : Delivery}

theorem webhook_of_event {event : StripeEvent}
    (hevent : d.event? constructEvent env = some event) :
    d.webhook constructEvent env = match event with
      | .checkoutSessionCompleted s => onCompleted env s
      | .checkoutSessionAsyncPaymentSucceeded s => onAsyncPaymentSucceeded env s
      | .other _ => .reply received := by
  obtain ⟨sig, hsig, hconstruct⟩ := Option.bind_eq_some_iff.mp hevent
  rw [Delivery.webhook, post, hsig]
  simp only [hconstruct]
  cases event with
  | checkoutSessionCompleted s => rfl
  | checkoutSessionAsyncPaymentSucceeded s => rfl
  | other type => rfl

theorem Session.filled_iff : session.Filled ↔ ∃ accountId amountNmc,
    truthy (session.meta "account_id") = some accountId ∧
      truthy (session.meta "amount_nmc") = some amountNmc := by
  unfold Session.Filled
  rw [Option.isSome_iff_exists, Option.isSome_iff_exists]
  exact ⟨fun ⟨⟨a, ha⟩, n, hn⟩ => ⟨a, n, ha, hn⟩, fun ⟨a, n, ha, hn⟩ => ⟨⟨a, ha⟩, n, hn⟩⟩

/-- The texts that are missing, in either way. -/
theorem Session.not_filled (hnot : ¬ session.Filled) :
    truthy (session.meta "account_id") = none ∨ truthy (session.meta "amount_nmc") = none := by
  cases haccount : truthy (session.meta "account_id") with
  | none => exact .inl rfl
  | some accountId =>
      cases hamount : truthy (session.meta "amount_nmc") with
      | none => exact .inr rfl
      | some amountNmc => exact absurd (filled_iff.mpr ⟨_, _, haccount, hamount⟩) hnot

theorem onCompleted_unpaid (hunpaid : session.paymentStatus ≠ "paid") :
    onCompleted env session = .reply received := if_pos hunpaid

variable (env) in
theorem onCompleted_filled (hpaid : session.paymentStatus = "paid") (hfilled : session.Filled) :
    ∃ request, onCompleted env session =
        .fetch request (fun ok => if ok then received else failure 500 "Credit failed") ∧
      request.body.get? "stripe_session_id" = some (.str session.id) := by
  obtain ⟨accountId, amountNmc, haccount, hamount⟩ := Session.filled_iff.mp hfilled
  rw [onCompleted, if_neg (not_not.mpr hpaid), haccount, hamount]
  exact ⟨_, rfl, rfl⟩

theorem onCompleted_not_filled (hpaid : session.paymentStatus = "paid")
    (hnot : ¬ session.Filled) :
    onCompleted env session = .reply (failure 400 "Missing metadata") := by
  rw [onCompleted, if_neg (not_not.mpr hpaid)]
  cases Session.not_filled hnot with
  | inl haccount => rw [haccount]
  | inr hamount =>
      rw [hamount]
      cases truthy (session.meta "account_id") with
      | none => rfl
      | some accountId => rfl

variable (env) in
theorem onAsyncPaymentSucceeded_filled (hfilled : session.Filled) :
    ∃ request, onAsyncPaymentSucceeded env session = .fetch request (fun _ => received) ∧
      request.body.get? "stripe_session_id" = some (.str session.id) := by
  obtain ⟨accountId, amountNmc, haccount, hamount⟩ := Session.filled_iff.mp hfilled
  rw [onAsyncPaymentSucceeded, haccount, hamount]
  exact ⟨_, rfl, rfl⟩

theorem onAsyncPaymentSucceeded_not_filled (hnot : ¬ session.Filled) :
    onAsyncPaymentSucceeded env session = .reply received := by
  rw [onAsyncPaymentSucceeded]
  cases Session.not_filled hnot with
  | inl haccount => rw [haccount]
  | inr hamount =>
      rw [hamount]
      cases truthy (session.meta "account_id") with
      | none => rfl
      | some accountId => rfl

/-- The texts are the same in every event of a session. -/
theorem filled_congr (hsame : s.metadata = session.metadata) : s.Filled ↔ session.Filled := by
  simp only [Session.Filled, Session.meta, hsame]

/-- A delivery that reports the session paid is of one of the two kinds. -/
theorem paid_cases (hof : d.IsOf constructEvent env session)
    (hpaid : d.ReportsPaid constructEvent env) :
    ∃ s : Session, s.id = session.id ∧ (s.Filled ↔ session.Filled) ∧
      (d.webhook constructEvent env = onCompleted env s ∧ s.paymentStatus = "paid" ∧
          ¬ d.IsAsync constructEvent env ∨
        d.webhook constructEvent env = onAsyncPaymentSucceeded env s ∧
          d.IsAsync constructEvent env) := by
  obtain ⟨s, hid, hmeta, hevent⟩ := hof
  refine ⟨s, hid, filled_congr hmeta, ?_⟩
  cases hevent with
  | inl hcompleted =>
      have hnot : ¬ d.IsAsync constructEvent env := by
        intro ⟨s', hevent'⟩
        rw [hcompleted] at hevent'
        cases hevent'
      obtain ⟨s', hevent', hstatus⟩ := hpaid.resolve_right hnot
      rw [hcompleted] at hevent'
      cases hevent'
      exact .inl ⟨webhook_of_event hcompleted, hstatus, hnot⟩
  | inr hasync => exact .inr ⟨webhook_of_event hasync, s, hasync⟩

/-- An event that does not report the session paid asks nothing of the coordinator. -/
theorem webhook_unpaid (hof : d.IsOf constructEvent env session)
    (hunpaid : ¬ d.ReportsPaid constructEvent env) :
    d.webhook constructEvent env = .reply received := by
  obtain ⟨s, _, _, hevent⟩ := hof
  cases hevent with
  | inl hcompleted =>
      rw [webhook_of_event hcompleted]
      exact onCompleted_unpaid fun hstatus => hunpaid (.inl ⟨s, hcompleted, hstatus⟩)
  | inr hasync => exact absurd (.inr ⟨s, hasync⟩) hunpaid

theorem credited_iff (hof : d.IsOf constructEvent env session) :
    d.Credited constructEvent env session.id ↔
      d.ReportsPaid constructEvent env ∧ session.Filled ∧ d.outcome = .answered true := by
  by_cases hpaid : d.ReportsPaid constructEvent env
  · obtain ⟨s, hid, hfilled, hcase⟩ := paid_cases hof hpaid
    unfold Delivery.Credited
    rw [← hfilled, ← hid]
    refine ⟨fun ⟨houtcome, request, next, hfetch, _⟩ => ⟨hpaid, ?_, houtcome⟩,
      fun ⟨_, hs, houtcome⟩ => ⟨houtcome, ?_⟩⟩
    · by_contra hnot
      rcases hcase with ⟨hwebhook, hstatus, _⟩ | ⟨hwebhook, _⟩
      · rw [hwebhook, onCompleted_not_filled hstatus hnot] at hfetch
        cases hfetch
      · rw [hwebhook, onAsyncPaymentSucceeded_not_filled hnot] at hfetch
        cases hfetch
    · rcases hcase with ⟨hwebhook, hstatus, _⟩ | ⟨hwebhook, _⟩
      · obtain ⟨request, hfetch, hsession⟩ := onCompleted_filled env hstatus hs
        exact ⟨request, _, hwebhook.trans hfetch, hsession⟩
      · obtain ⟨request, hfetch, hsession⟩ := onAsyncPaymentSucceeded_filled env hs
        exact ⟨request, _, hwebhook.trans hfetch, hsession⟩
  · refine iff_of_false (fun hcredited => ?_) fun h => hpaid h.1
    obtain ⟨_, request, next, hfetch, _⟩ := hcredited
    rw [webhook_unpaid hof hpaid] at hfetch
    cases hfetch

theorem acknowledged_iff (hof : d.IsOf constructEvent env session)
    (hpaid : d.ReportsPaid constructEvent env) :
    d.Acknowledged constructEvent env ↔ session.Filled ∧ d.outcome = .answered true ∨
      d.IsAsync constructEvent env ∧ (session.Filled → d.outcome = .answered false) := by
  obtain ⟨s, _, hfilled, hcase⟩ := paid_cases hof hpaid
  unfold Delivery.Acknowledged
  rw [← hfilled]
  rcases hcase with ⟨hwebhook, hstatus, hnot⟩ | ⟨hwebhook, hasync⟩
  · simp only [hwebhook, hnot, false_and, or_false]
    by_cases hs : s.Filled
    · obtain ⟨request, hfetch, _⟩ := onCompleted_filled env hstatus hs
      rw [hfetch]
      cases d.outcome with
      | answered ok =>
        cases ok with
        | true => exact iff_of_true received_acknowledges ⟨hs, rfl⟩
        | false =>
            exact iff_of_false (failure_not_acknowledges (by decide) _) fun h => by cases h.2
      | networkError => exact iff_of_false exception_not_acknowledges fun h => by cases h.2
    · rw [onCompleted_not_filled hstatus hs]
      exact iff_of_false (failure_not_acknowledges (by decide) _) fun h => hs h.1
  · simp only [hwebhook, hasync, true_and]
    by_cases hs : s.Filled
    · obtain ⟨request, hfetch, _⟩ := onAsyncPaymentSucceeded_filled env hs
      rw [hfetch]
      cases d.outcome with
      | answered ok =>
        cases ok with
        | true => exact iff_of_true received_acknowledges (.inl ⟨hs, rfl⟩)
        | false => exact iff_of_true received_acknowledges (.inr fun _ => rfl)
      | networkError =>
          refine iff_of_false exception_not_acknowledges fun h => ?_
          rcases h with ⟨_, h⟩ | h
          · cases h
          · cases h hs
    · rw [onAsyncPaymentSucceeded_not_filled hs]
      exact iff_of_true received_acknowledges (.inr fun hfilled => absurd hfilled hs)

end Events

/-- A paid session is acknowledged without a credit only by an event of a delayed payment whose
credit the coordinator refused, or for which nothing was asked. -/
theorem neverLost_iff (constructEvent : String → String → Option String → Option StripeEvent)
    (env : Env) (session : Session) (deliveries : List Delivery)
    (hof : ∀ d ∈ deliveries, d.IsOf constructEvent env session) :
    NeverLost constructEvent env session deliveries ↔
      AsyncCovered constructEvent env session deliveries := by
  refine ⟨fun hlost => ⟨fun d hd hasync => ?_, fun before d after hsplit hasync hrefused => ?_⟩,
    fun hcovered before d after hsplit hpaid hack => ?_⟩
  · by_contra hnot
    obtain ⟨before, after, hsplit⟩ := List.append_of_mem hd
    obtain ⟨e, he, hcredited⟩ := hlost before d after hsplit (.inr hasync)
      ((acknowledged_iff (hof d hd) (.inr hasync)).mpr
        (.inr ⟨hasync, fun hfilled => absurd hfilled hnot⟩))
    have heof : e.IsOf constructEvent env session := hof e (by
      rw [hsplit, List.mem_append, List.mem_cons]
      rw [List.mem_append, List.mem_singleton] at he
      exact he.imp_right .inl)
    exact hnot ((credited_iff heof).mp hcredited).2.1
  · have hd : d ∈ deliveries := by
      rw [hsplit]
      exact List.mem_append_right _ List.mem_cons_self
    obtain ⟨e, he, hcredited⟩ := hlost before d after hsplit (.inr hasync)
      ((acknowledged_iff (hof d hd) (.inr hasync)).mpr (.inr ⟨hasync, fun _ => hrefused⟩))
    rw [List.mem_append, List.mem_singleton] at he
    cases he with
    | inl he =>
        have heof : e.IsOf constructEvent env session := hof e (by
          rw [hsplit]
          exact List.mem_append_left _ he)
        obtain ⟨hpaid, _, houtcome⟩ := (credited_iff heof).mp hcredited
        exact ⟨e, he, hpaid, houtcome⟩
    | inr he =>
        have haccepted : d.outcome = .answered true := he ▸ hcredited.1
        rw [hrefused] at haccepted
        cases haccepted
  · have hd : d ∈ deliveries := by
      rw [hsplit]
      exact List.mem_append_right _ List.mem_cons_self
    have hlast : d ∈ before ++ [d] := List.mem_append_right _ (List.mem_singleton_self d)
    rcases (acknowledged_iff (hof d hd) hpaid).mp hack with hcredit | ⟨hasync, hrefused⟩
    · exact ⟨d, hlast, (credited_iff (hof d hd)).mpr ⟨hpaid, hcredit⟩⟩
    · have hfilled := hcovered.filled d hd hasync
      obtain ⟨e, he, hepaid, houtcome⟩ :=
        hcovered.refused before d after hsplit hasync (hrefused hfilled)
      have heof : e.IsOf constructEvent env session := hof e (by
        rw [hsplit]
        exact List.mem_append_left _ he)
      exact ⟨e, List.mem_append_left _ he, (credited_iff heof).mpr ⟨hepaid, hfilled, houtcome⟩⟩

/-! ### A payment that was on its way -/

/-- A session of alice over 100 NMC. -/
def sampleSession (paymentStatus : String) : Session where
  id := "cs_1"
  paymentStatus
  metadata := some [("account_id", "alice"), ("amount_nmc", "100")]
  paymentIntent := .null
  amountTotal := some 5000

/-- Stripe's library, for the two events of that session. -/
def sampleConstructEvent (body _sig : String) (_secret : Option String) : Option StripeEvent :=
  if body = "completed" then some (.checkoutSessionCompleted (sampleSession "unpaid"))
  else if body = "succeeded" then
    some (.checkoutSessionAsyncPaymentSucceeded (sampleSession "paid"))
  else none

def sampleEnv : Env := ⟨some "secret", none, some "whsec"⟩

/-- Both events are delivered once; the coordinator answers the request of the second like this. -/
def sampleDeliveries (ok : Bool) : List Delivery :=
  [⟨"completed", some "sig", .networkError⟩, ⟨"succeeded", some "sig", .answered ok⟩]

theorem sampleDeliveries_isOf (ok : Bool) :
    ∀ d ∈ sampleDeliveries ok, d.IsOf sampleConstructEvent sampleEnv (sampleSession "paid") := by
  intro d hd
  rcases List.mem_pair.mp hd with rfl | rfl
  · exact ⟨sampleSession "unpaid", rfl, rfl, .inl rfl⟩
  · exact ⟨sampleSession "paid", rfl, rfl, .inr rfl⟩

theorem neverLost_iff_credited :
    NeverLost sampleConstructEvent sampleEnv (sampleSession "paid") (sampleDeliveries true) ↔
      AsyncCovered sampleConstructEvent sampleEnv (sampleSession "paid") (sampleDeliveries true) :=
  neverLost_iff sampleConstructEvent sampleEnv (sampleSession "paid") (sampleDeliveries true)
    (sampleDeliveries_isOf true)

/-- The coordinator refuses the credit, and Stripe is told that all is well. -/
theorem paid_session_lost :
    (∀ d ∈ sampleDeliveries false,
      d.IsOf sampleConstructEvent sampleEnv (sampleSession "paid")) ∧
    (sampleSession "paid").meta "account_id" = some "alice" ∧
    (sampleSession "paid").meta "amount_nmc" = some "100" ∧
    ¬ NeverLost sampleConstructEvent sampleEnv (sampleSession "paid") (sampleDeliveries false) := by
  refine ⟨sampleDeliveries_isOf false, by decide +kernel, by decide +kernel, fun hlost => ?_⟩
  have hasync : (⟨"succeeded", some "sig", .answered false⟩ : Delivery).IsAsync
      sampleConstructEvent sampleEnv := ⟨sampleSession "paid", rfl⟩
  obtain ⟨e, he, hcredited⟩ := hlost [⟨"completed", some "sig", .networkError⟩]
    ⟨"succeeded", some "sig", .answered false⟩ [] rfl (.inr hasync) received_acknowledges
  rcases List.mem_pair.mp he with rfl | rfl
  · exact CreditOutcome.noConfusion hcredited.1
  · cases hcredited.1

end NeuralMesh.Dashboard
