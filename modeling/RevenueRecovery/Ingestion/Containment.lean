import RevenueRecovery.Ingestion.Parsers

/-!
# Stage 1: what untrusted input can raise

Each function on the way from a webhook to its canonical event raises an exception of
ingestion, except on the inputs listed here: a signature that is not ASCII, a body that
`json.loads` refuses with another error than a syntax error, seconds that overflow, a link
that `urlparse` refuses, and a time whose UTC value is outside of the calendar.

## Main definitions
* `RazorpayContained`, `PaypalContained` : nothing but exceptions of ingestion is raised.
* `RazorpaySafe`, `PaypalSafe` : the inputs of which this holds.
-/
namespace RevenueRecovery

open Json

section Razorpay
variable {Body : Type} {parts : WebhookParts Body} {secret signature : String} {body : Body}

theorem compareDigest_eq_none {expected : String} (h : isAscii expected = true) :
    compareDigest expected signature = none ↔ isAscii signature = false := by
  simp [compareDigest, h]

theorem verifyRazorpaySignature_unexpected :
    verifyRazorpaySignature parts secret body signature = .error .unexpected ↔
      signature ≠ "" ∧ secret ≠ "" ∧ isAscii signature = false := by
  rw [← compareDigest_eq_none (parts.hmacSha256Hex_ascii secret body)]
  unfold verifyRazorpaySignature
  by_cases hsignature : signature = ""
  · simp [hsignature]
  · by_cases hsecret : secret = ""
    · simp [hsignature, hsecret]
    · cases hcompare : compareDigest (parts.hmacSha256Hex secret body) signature with
      | none => simp [hsignature, hsecret]
      | some same => cases same <;> simp [hsignature, hsecret]

theorem parseRazorpayEvent_unexpected :
    parseRazorpayEvent parts body = .error .unexpected ↔
      ∃ err, parts.loads body = .error err ∧ err ≠ .jsonDecodeError := by
  unfold parseRazorpayEvent
  cases hload : parts.loads body with
  | error err => cases err <;> simp
  | ok data => cases hvalid : validateRazorpayWebhookEvent parts.laxInt data <;> simp [hvalid]

theorem parseRazorpayEvent_ok {event : RazorpayWebhookEvent} :
    parseRazorpayEvent parts body = .ok event ↔
      ∃ data, parts.loads body = .ok data ∧
        validateRazorpayWebhookEvent parts.laxInt data = some event := by
  unfold parseRazorpayEvent
  cases hload : parts.loads body with
  | error err => cases err <;> simp
  | ok data => cases hvalid : validateRazorpayWebhookEvent parts.laxInt data <;> simp [hvalid]

theorem normalizeRazorpayEvent_unexpected {python : PythonLibrary} {event : RazorpayWebhookEvent}
    {sourceEventId : String} {eventId : ℕ} {now : Time} :
    normalizeRazorpayEvent python event sourceEventId eventId now = .error .unexpected ↔
      event.createdAt < -2 ^ 63 ∨ 2 ^ 63 ≤ event.createdAt := by
  simp only [normalizeRazorpayEvent, fromTimestamp, bind, Except.bind, pure, Except.pure, throw,
    throwThe, MonadExceptOf.throw]
  grind

end Razorpay

section Paypal
variable {urlparse : String → Option SplitUrl} {event : Json}

theorem PayPalLink.url_cases (link : PayPalLink) :
    (∃ url, link.url urlparse = .ok url ∧ (urlparse link.href).isSome = true) ∨
      link.url urlparse = .error .unexpected ∧ urlparse link.href = none := by
  unfold url
  cases urlparse link.href with
  | none => exact .inr ⟨rfl, rfl⟩
  | some url => exact .inl ⟨url, rfl, rfl⟩

/-- The URLs of links, or the exception of one that has none. -/
theorem mapM_url_cases (urlparse : String → Option SplitUrl) (links : List PayPalLink) :
    (∃ urls, links.mapM (PayPalLink.url urlparse) = .ok urls ∧
      ∀ link ∈ links, (urlparse link.href).isSome = true) ∨
    (links.mapM (PayPalLink.url urlparse) = .error .unexpected ∧
      ∃ link ∈ links, urlparse link.href = none) := by
  induction links with
  | nil => exact .inl ⟨[], rfl, by simp⟩
  | cons link links ih =>
      rw [List.mapM_cons]
      rcases link.url_cases with ⟨url, hurl, hsome⟩ | ⟨herror, hnone⟩
      · rw [hurl]
        rcases ih with ⟨urls, hok, hall⟩ | ⟨herror, other, hother, hnone⟩
        · exact .inl ⟨url :: urls, by rw [hok]; rfl, List.forall_mem_cons.mpr ⟨hsome, hall⟩⟩
        · exact .inr ⟨by rw [herror]; rfl, other, List.mem_cons_of_mem _ hother, hnone⟩
      · exact .inr ⟨by rw [herror]; rfl, link, List.mem_cons_self, hnone⟩

/-- Following the `up` links of a refund fails when one of them is no URL. -/
theorem refundedCaptureId_unexpected {links : List PayPalLink} :
    refundedCaptureId urlparse links = .error .unexpected ↔
      ∃ link ∈ links, link.rel = "up" ∧ urlparse link.href = none := by
  unfold refundedCaptureId
  rcases mapM_url_cases urlparse (links.filter (·.rel = "up")) with
    ⟨urls, hok, hall⟩ | ⟨herror, link, hlink, hnone⟩
  · rw [hok]
    refine iff_of_false ?_ ?_
    · simp only [bind, Except.bind]
      split <;> exact nofun
    · rintro ⟨link, hlink, hup, hnone⟩
      have hsome := hall link (by simp [hlink, hup])
      rw [hnone] at hsome
      cases hsome
  · rw [herror]
    obtain ⟨hlink, hup⟩ : link ∈ links ∧ link.rel = "up" := by simpa using hlink
    exact iff_of_true rfl ⟨link, hlink, hup, hnone⟩

/-- An event that is not valid is refused with one of these exceptions. -/
theorem validatePaypalEvent_error {err : IngestionError}
    (h : validatePaypalEvent event = .error err) :
    err = .malformedInput ∨ err = .schemaValidation ∨ err = .unsupportedEventType := by
  simp only [validatePaypalEvent, bind, Except.bind, pure, Except.pure, throw, throwThe,
    MonadExceptOf.throw] at h
  grind

/-- The envelope repeats the header. -/
theorem validatePayPalEnvelope_header {envelope : PayPalEnvelope}
    (h : validatePayPalEnvelope event = some envelope) :
    validatePayPalEventHeader event = some (envelope.id, envelope.eventType) := by
  simp only [validatePayPalEnvelope, Option.bind_eq_bind, Option.bind_eq_some_iff,
    Option.pure_def, Option.some.injEq] at h
  obtain ⟨⟨id, eventType⟩, hheader, -, -, -, -, -, -, -, -, rfl⟩ := h
  exact hheader

theorem validateIdentifier_ne_empty {j : Json} {id : String}
    (h : required "id" validateIdentifier j = some id) : id ≠ "" := by
  obtain ⟨value, -, hvalue⟩ := Option.bind_eq_some_iff.mp h
  have hmatch := (Option.filter_eq_some_iff.mp hvalue).2
  rintro rfl
  simp [matchesPaypalIdentifier] at hmatch

theorem validatePayPalResource_id {model : PayPalResourceModel} {j : Json}
    {resource : ValidatedResource} (h : validatePayPalResource model j = some resource) :
    resource.id ≠ "" := by
  simp only [validatePayPalResource, Option.bind_eq_bind, Option.bind_eq_some_iff] at h
  obtain ⟨id, hid, status, -, h⟩ := h
  have hne := validateIdentifier_ne_empty hid
  cases model with
  | capture =>
      simp only [Option.bind_eq_some_iff, Option.pure_def, Option.some.injEq] at h
      obtain ⟨-, -, -, -, -, -, rfl⟩ := h
      exact hne
  | refund =>
      simp only [Option.bind_eq_some_iff, Option.pure_def, Option.some.injEq] at h
      obtain ⟨-, -, -, -, -, -, rfl⟩ := h
      exact hne
  | order =>
      simp only [Option.bind_eq_some_iff] at h
      obtain ⟨units, -, h⟩ := h
      split at h
      · cases h
      · cases h
        exact hne

theorem refundedCaptureId_ne_empty {links : List PayPalLink} {captureId : String}
    (h : refundedCaptureId urlparse links = .ok captureId) : captureId ≠ "" := by
  unfold refundedCaptureId at h
  cases hurls : (links.filter (·.rel = "up")).mapM (PayPalLink.url urlparse) with
  | error err => simp [hurls, bind, Except.bind] at h
  | ok urls =>
      simp only [hurls, bind, Except.bind, pure, Except.pure] at h
      split at h
      · rename_i id hone
        cases h
        obtain ⟨url, -, hlinked⟩ : ∃ url ∈ urls, linkedCapture url = some captureId :=
          List.mem_filterMap.mp (hone ▸ List.mem_singleton_self _)
        unfold linkedCapture matchCapturePath at hlinked
        dsimp only at hlinked
        split at hlinked
        · split at hlinked
          · have hmatch := (Option.filter_eq_some_iff.mp hlinked).2
            rintro rfl
            simp [matchesPaypalIdentifier] at hmatch
          · cases hlinked
        · cases hlinked
      · cases h

/-- What a validated event meets. -/
theorem validatePaypalEvent_ok {envelope : PayPalEnvelope} {resource : ValidatedResource}
    (h : validatePaypalEvent event = .ok (envelope, resource)) :
    ∃ spec, paypalEventSpecs.lookup envelope.eventType = some spec ∧
      validatePayPalResource spec.resourceModel envelope.resource = some resource ∧
      resource.status ∈ spec.allowedStatuses ∧ validatePayPalEnvelope event = some envelope := by
  simp only [validatePaypalEvent, bind, Except.bind, pure, Except.pure, throw, throwThe,
    MonadExceptOf.throw] at h
  split at h
  · cases h
  · split at h
    · rename_i hheader
      split at h
      · rename_i spec hspec
        split at h
        · rename_i envelope' henvelope
          rw [validatePayPalEnvelope_header henvelope] at hheader
          obtain ⟨-, rfl⟩ := Prod.mk.inj (Option.some.inj hheader)
          split at h
          · cases h
          · split at h
            · cases h
            · split at h
              · rename_i hresource
                split at h
                · cases h
                · rename_i hstatus
                  cases h
                  exact ⟨spec, hspec, hresource, by simpa using hstatus, henvelope⟩
              · cases h
        · cases h
      · cases h
    · cases h

/-- Parsing a validated event fails with its links alone. -/
theorem paypalEventOf_unexpected {envelope : PayPalEnvelope} {resource : ValidatedResource} :
    paypalEventOf urlparse envelope resource = .error .unexpected ↔
      ∃ id status amount links orderId, resource = .refund id status amount links orderId ∧
        ∃ link ∈ links, link.rel = "up" ∧ urlparse link.href = none := by
  cases resource with
  | capture => exact iff_of_false nofun (by simp)
  | order => exact iff_of_false nofun (by simp)
  | refund id status amount links orderId =>
      have hiff : paypalEventOf urlparse envelope (.refund id status amount links orderId) =
          .error .unexpected ↔ refundedCaptureId urlparse links = .error .unexpected := by
        simp only [paypalEventOf, bind, Except.bind, pure, Except.pure]
        cases refundedCaptureId urlparse links <;> simp
      rw [hiff, refundedCaptureId_unexpected]
      simp

theorem parsePaypalEvent_unexpected :
    parsePaypalEvent urlparse event = .error .unexpected ↔
      ∃ envelope id status amount links orderId, validatePaypalEvent event =
          .ok (envelope, .refund id status amount links orderId) ∧
        ∃ link ∈ links, link.rel = "up" ∧ urlparse link.href = none := by
  simp only [parsePaypalEvent, bind, Except.bind]
  cases hvalid : validatePaypalEvent event with
  | error err =>
      rcases validatePaypalEvent_error hvalid with rfl | rfl | rfl <;> simp
  | ok validated =>
      obtain ⟨envelope, resource⟩ := validated
      simp only [paypalEventOf_unexpected, Except.ok.injEq, Prod.mk.injEq]
      constructor
      · rintro ⟨id, status, amount, links, orderId, rfl, hlink⟩
        exact ⟨envelope, id, status, amount, links, orderId, ⟨rfl, rfl⟩, hlink⟩
      · rintro ⟨-, id, status, amount, links, orderId, ⟨-, rfl⟩, hlink⟩
        exact ⟨id, status, amount, links, orderId, rfl, hlink⟩

/-- A parsed event has a canonical event type and a payment id. -/
theorem parsePaypalEvent_ok {parsed : PayPalWebhookEvent}
    (h : parsePaypalEvent urlparse event = .ok parsed) :
    (paypalEventMapping.lookup parsed.eventType).isSome = true ∧
      parsed.paymentId.getD "" ≠ "" := by
  simp only [parsePaypalEvent, bind, Except.bind] at h
  cases hvalid : validatePaypalEvent event with
  | error err => simp [hvalid] at h
  | ok validated =>
      obtain ⟨envelope, resource⟩ := validated
      simp only [hvalid] at h
      obtain ⟨spec, hspec, hresource, -⟩ := validatePaypalEvent_ok hvalid
      have hid := validatePayPalResource_id hresource
      have hmapped : (paypalEventMapping.lookup envelope.eventType).isSome = true := by
        have hkeys : paypalEventSpecs.map Prod.fst = paypalEventMapping.map Prod.fst := rfl
        obtain ⟨entry, hentry, hkey⟩ :=
          List.lookup_isSome_iff.mp (Option.isSome_of_eq_some hspec)
        obtain ⟨mapped, hmapped, hsame⟩ :=
          List.mem_map.mp (hkeys ▸ List.mem_map_of_mem (f := Prod.fst) hentry)
        exact List.lookup_isSome_iff.mpr ⟨mapped, hmapped, hsame ▸ hkey⟩
      cases resource with
      | capture id status amount reason orderId =>
          cases h
          exact ⟨hmapped, hid⟩
      | order id status units =>
          cases h
          exact ⟨hmapped, hid⟩
      | refund id status amount links orderId =>
          simp only [paypalEventOf, bind, Except.bind, pure, Except.pure] at h
          cases hcapture : refundedCaptureId urlparse links with
          | error err => simp [hcapture] at h
          | ok captureId =>
              simp only [hcapture] at h
              cases h
              exact ⟨hmapped, refundedCaptureId_ne_empty hcapture⟩

theorem parsePaypalTimestamp_unexpected {python : PythonLibrary} {value : String} :
    parsePaypalTimestamp python value = .error .unexpected ↔
      matchesRfc3339 value = true ∧ ∃ parsed, python.fromIsoFormat value = some parsed ∧
        inCalendar (parsed.wallClock - parsed.utcOffset) = false := by
  unfold parsePaypalTimestamp
  by_cases hmatch : matchesRfc3339 value = true
  · cases hparsed : python.fromIsoFormat value with
    | none => simp [hmatch]
    | some parsed =>
        unfold OffsetDateTime.astimezone
        cases hin : inCalendar (parsed.wallClock - parsed.utcOffset) <;> simp [hmatch, hin]
  · simp [hmatch]

/-- Normalizing a parsed event fails with its time alone, once its amount is found. -/
theorem normalizePaypalEvent_unexpected {python : PythonLibrary} {parsed : PayPalWebhookEvent}
    {eventId : ℕ} {now : Time} (hmapped : (paypalEventMapping.lookup parsed.eventType).isSome = true)
    (hid : parsed.paymentId.getD "" ≠ "") :
    normalizePaypalEvent python parsed eventId now = .error .unexpected ↔
      (∃ amount, parsed.resource.eventAmount = .ok amount) ∧
        parsePaypalTimestamp python parsed.createTime = .error .unexpected := by
  obtain ⟨mapped, hlookup⟩ := Option.isSome_iff_exists.mp hmapped
  simp only [normalizePaypalEvent, hlookup, hid, if_false, bind, Except.bind, pure, Except.pure]
  cases hamount : parsed.resource.eventAmount with
  | error err =>
      have hkind := eventAmount_error hamount
      simp [hkind]
  | ok amount =>
      cases htime : parsePaypalTimestamp python parsed.createTime with
      | error err => simp
      | ok time =>
          cases hunits : toMinorUnits amount.value amount.currencyCode with
          | error err =>
              have hkind := toMinorUnits_error hunits
              simp [hunits, hkind]
          | ok units => simp [hunits]

end Paypal

/-! ## Containment -/

section Containment
variable {Body : Type}

/-- The functions of the Razorpay path raise nothing but exceptions of ingestion. -/
structure RazorpayContained (parts : WebhookParts Body) (secret : String) (body : Body)
    (signature : String) : Prop where
  verify : verifyRazorpaySignature parts secret body signature ≠ .error .unexpected
  parse : parseRazorpayEvent parts body ≠ .error .unexpected
  normalize : ∀ event sourceEventId eventId now, parseRazorpayEvent parts body = .ok event →
    normalizeRazorpayEvent parts.toPythonLibrary event sourceEventId eventId now ≠
      .error .unexpected

/-- So do those of the PayPal path. -/
structure PaypalContained (parts : WebhookParts Body) (event : Json) : Prop where
  parse : parsePaypalEvent parts.urlparse event ≠ .error .unexpected
  normalize : ∀ parsed eventId now, parsePaypalEvent parts.urlparse event = .ok parsed →
    normalizePaypalEvent parts.toPythonLibrary parsed eventId now ≠ .error .unexpected

/-- A signature that is ASCII, a body that is JSON or has a syntax error, and seconds that
fit 64 bits. -/
structure RazorpaySafe (parts : WebhookParts Body) (secret : String) (body : Body)
    (signature : String) : Prop where
  signature_ascii : signature = "" ∨ secret = "" ∨ isAscii signature = true
  body_decodes : ∀ err, parts.loads body = .error err → err = .jsonDecodeError
  created_at_fits : ∀ data event, parts.loads body = .ok data →
    validateRazorpayWebhookEvent parts.laxInt data = some event →
    -2 ^ 63 ≤ event.createdAt ∧ event.createdAt < 2 ^ 63

/-- A refund whose `up` links are URLs, and a creation time within the calendar. -/
structure PaypalSafe (parts : WebhookParts Body) (event : Json) : Prop where
  links_parse : ∀ envelope id status amount links orderId,
    validatePaypalEvent event = .ok (envelope, .refund id status amount links orderId) →
    ∀ link ∈ links, link.rel = "up" → (parts.urlparse link.href).isSome = true
  time_in_calendar : ∀ parsed amount t, parsePaypalEvent parts.urlparse event = .ok parsed →
    parsed.resource.eventAmount = .ok amount → matchesRfc3339 parsed.createTime = true →
    parts.fromIsoFormat parsed.createTime = some t → inCalendar (t.wallClock - t.utcOffset) = true

variable {parts : WebhookParts Body} {secret signature : String} {body : Body} {event : Json}

theorem razorpayContained_iff :
    RazorpayContained parts secret body signature ↔ RazorpaySafe parts secret body signature := by
  constructor
  · rintro ⟨hverify, hparse, hnormalize⟩
    rw [ne_eq, verifyRazorpaySignature_unexpected] at hverify
    rw [ne_eq, parseRazorpayEvent_unexpected] at hparse
    refine ⟨?_, fun err herr => ?_, fun data event hdata hevent => ?_⟩
    · by_contra hunsafe
      simp only [not_or, Bool.not_eq_true] at hunsafe
      exact hverify hunsafe
    · by_contra hne
      exact hparse ⟨err, herr, hne⟩
    · have hfits := hnormalize event "" 0 0 (parseRazorpayEvent_ok.mpr ⟨data, hdata, hevent⟩)
      rw [ne_eq, normalizeRazorpayEvent_unexpected, not_or] at hfits
      exact ⟨not_lt.mp hfits.1, not_le.mp hfits.2⟩
  · rintro ⟨hascii, hdecodes, hfits⟩
    refine ⟨fun h => ?_, fun h => ?_, fun event sourceEventId eventId now hparse h => ?_⟩
    · obtain ⟨hsignature, hsecret, hother⟩ := verifyRazorpaySignature_unexpected.mp h
      simp [hsignature, hsecret, hother] at hascii
    · obtain ⟨err, herr, hne⟩ := parseRazorpayEvent_unexpected.mp h
      exact hne (hdecodes err herr)
    · obtain ⟨data, hdata, hevent⟩ := parseRazorpayEvent_ok.mp hparse
      obtain ⟨hmin, hmax⟩ := hfits data event hdata hevent
      rcases normalizeRazorpayEvent_unexpected.mp h with hlt | hge
      · exact absurd hmin (not_le.mpr hlt)
      · exact absurd hmax (not_lt.mpr hge)

theorem paypalContained_iff : PaypalContained parts event ↔ PaypalSafe parts event := by
  constructor
  · rintro ⟨hparse, hnormalize⟩
    rw [ne_eq, parsePaypalEvent_unexpected] at hparse
    refine ⟨fun envelope id status amount links orderId hvalid link hlink hup => ?_,
      fun parsed amount t hparsed hamount hmatch ht => ?_⟩
    · by_contra hnone
      exact hparse ⟨envelope, id, status, amount, links, orderId, hvalid, link, hlink, hup,
        by simpa using hnone⟩
    · obtain ⟨hmapped, hid⟩ := parsePaypalEvent_ok hparsed
      have hcontained := hnormalize parsed 0 0 hparsed
      rw [ne_eq, normalizePaypalEvent_unexpected hmapped hid,
        parsePaypalTimestamp_unexpected] at hcontained
      by_contra hout
      exact hcontained ⟨⟨amount, hamount⟩, hmatch, t, ht, by simpa using hout⟩
  · rintro ⟨hlinks, htime⟩
    refine ⟨fun h => ?_, fun parsed eventId now hparsed h => ?_⟩
    · obtain ⟨envelope, id, status, amount, links, orderId, hvalid, link, hlink, hup, hnone⟩ :=
        parsePaypalEvent_unexpected.mp h
      have hsome := hlinks envelope id status amount links orderId hvalid link hlink hup
      rw [hnone] at hsome
      cases hsome
    · obtain ⟨hmapped, hid⟩ := parsePaypalEvent_ok hparsed
      obtain ⟨⟨amount, hamount⟩, htimestamp⟩ :=
        (normalizePaypalEvent_unexpected hmapped hid).mp h
      obtain ⟨hmatch, t, ht, hout⟩ := parsePaypalTimestamp_unexpected.mp htimestamp
      rw [htime parsed amount t hparsed hamount hmatch ht] at hout
      cases hout

/-- Untrusted input stays within the exceptions of ingestion exactly when it is safe. -/
theorem contained_iff (parts : WebhookParts Body) (secret : String) (body : Body)
    (signature : String) (event : Json) :
    (RazorpayContained parts secret body signature ∧ PaypalContained parts event) ↔
      RazorpaySafe parts secret body signature ∧ PaypalSafe parts event :=
  and_congr razorpayContained_iff paypalContained_iff

end Containment

namespace ContainmentExample

/-- What a body `{}` yields, and the time an hour before the year 1. -/
def parts : WebhookParts String where
  upper := String.toUpper
  fromIsoFormat s :=
    if s = "0001-01-01T00:00:00+01:00" then
      some ⟨Time.seconds (-62135596800), Time.seconds 3600⟩
    else none
  hmacSha256Hex _ _ := "ae6341ea7f40a435db57d903d02cba19085efb8a913f8cfbd8cff3d7df0c7a2d"
  hmacSha256Hex_ascii _ _ := by decide +kernel
  loads body := if body = "\x7b\x7d" then .ok (.obj []) else .error .jsonDecodeError
  loadsStandard body := if body = "\x7b\x7d" then .ok (.obj []) else .error .jsonDecodeError
  laxInt := strictInt
  urlparse _ := none
  canonicalHash _ := some "44136fa355b3678a1146ad16f7e8649e94fb4fc21fe77e8310c060f61caaff8a"

def text (s : String) : Json := .str (.text s)

def object (members : List (String × Json)) : Json :=
  .obj (members.map fun m => (.text m.1, m.2))

/-- An approval of an order created in the first hour of the year 1, east of Greenwich. -/
def approval : Json :=
  object
    [("id", text "WH-1"), ("event_type", text "CHECKOUT.ORDER.APPROVED"),
      ("create_time", text "0001-01-01T00:00:00+01:00"), ("resource_type", text "checkout-order"),
      ("resource_version", text "2.0"),
      ("resource", object
        [("id", text "O-1"), ("status", text "APPROVED"),
          ("purchase_units", .arr [object [("amount", object
            [("currency_code", text "USD"), ("value", text "12.50")])]])])]

end ContainmentExample

open ContainmentExample in
/-- A signature that is not ASCII raises a `TypeError`, and a time before the year 1 an
`OverflowError`. -/
theorem not_contained :
    verifyRazorpaySignature parts "whsec" "\x7b\x7d" "é" = .error .unexpected ∧
      ((parsePaypalEvent parts.urlparse approval).bind fun parsed =>
        normalizePaypalEvent parts.toPythonLibrary parsed 0 0) = .error .unexpected ∧
      ¬RazorpayContained parts "whsec" "\x7b\x7d" "é" ∧ ¬PaypalContained parts approval := by
  have hsignature : verifyRazorpaySignature parts "whsec" "\x7b\x7d" "é" = .error .unexpected := by
    decide +kernel
  have htime : ((parsePaypalEvent parts.urlparse approval).bind fun parsed =>
      normalizePaypalEvent parts.toPythonLibrary parsed 0 0) = .error .unexpected := by
    decide +kernel
  refine ⟨hsignature, htime, fun h => h.verify hsignature, fun h => ?_⟩
  cases hparsed : parsePaypalEvent parts.urlparse approval with
  | error err =>
      rw [hparsed] at htime
      obtain rfl := Except.error.inj htime
      exact h.parse hparsed
  | ok parsed =>
      rw [hparsed] at htime
      exact h.normalize parsed 0 0 hparsed htime

end RevenueRecovery
