import RevenueRecovery.Ingestion.Parsers
import RevenueRecovery.Lib.JsonText

/-!
# Stage 1: the request that verifies a webhook

PayPal is asked whether a webhook is authentic. The request repeats the transmission headers
and has the webhook's body in it, byte for byte: its text is put behind the text of the other
members. The body is read twice, by the check that lets it into the request and by `ingest`.

## Main definitions
* `Json.ofTree`, `loads`, `loadsBytes` : what `json.loads` makes of a text, and of bytes.
* `transmissionFields`, `verificationRequestBody` : the request.
* `ingestObject` : what `ingest` decodes.
* `BodyIntegrity` : the request has its own members, and the body it was given.
-/
namespace RevenueRecovery

open JsonText (Tree)

/-! ## `json.loads` -/

/-- The string of code points. -/
def PyString.ofCodePoints (s : List ℕ) : PyString :=
  if s.all fun n => decide n.isValidChar then .text (String.ofList (s.map Char.ofNat))
  else .surrogates s

/-- `sys.int_info.default_max_str_digits`: an integer of more digits is a `ValueError`. -/
def maxStrDigits : ℕ := 4300

def Json.ofNumeral (n : JsonText.Numeral) : Option Json :=
  if n.frac = [] ∧ n.exp = [] then
    let digits := n.int.filter JsonText.isDigit
    let magnitude := Nat.ofDigitChars 10 digits 0
    if digits.length ≤ maxStrDigits then
      some (.int (if n.int.head? = some '-' then -magnitude else magnitude))
    else none
  else some (.float (String.ofList (n.int ++ n.frac ++ n.exp)))

/-- A `dict` keeps the last value of a key, where the key came first. -/
def dictSet {κ α : Type} [DecidableEq κ] (dict : List (κ × α)) (key : κ) (value : α) :
    List (κ × α) :=
  if key ∈ dict.map Prod.fst then dict.map fun m => if m.1 = key then (key, value) else m
  else dict ++ [(key, value)]

mutual

/-- The value of a text. -/
def Json.ofTree : Tree → Option Json
  | .null => some .null
  | .bool b => some (.bool b)
  | .number n => Json.ofNumeral n
  | .str s => some (.str (.ofCodePoints s))
  | .arr items => (Json.ofItems items).map .arr
  | .obj members => (Json.ofMembers members []).map .obj

def Json.ofItems : List Tree → Option (List Json)
  | [] => some []
  | item :: items => do
      let value ← Json.ofTree item
      let values ← Json.ofItems items
      return value :: values

/-- The `dict` of members, after those it has. -/
def Json.ofMembers : List (List ℕ × Tree) → List (PyString × Json) →
    Option (List (PyString × Json))
  | [], dict => some dict
  | (name, member) :: members, dict => do
      let value ← Json.ofTree member
      Json.ofMembers members (dictSet dict (.ofCodePoints name) value)

end

/-- `json.loads` of a text; `none` for an exception, all of which the callers catch. Containers
nest to the depth that the recursion limit leaves. The hook of the callers refuses the
constants `NaN` and `Infinity`, as the grammar does. -/
def loads (depth : ℕ) (text : String) : Option Json :=
  (JsonText.parse depth text.toList).bind Json.ofTree

/-- The encodings `json.detect_encoding` tells apart. -/
inductive TextEncoding
  | utf8
  | utf8Sig
  | utf16
  | utf16be
  | utf16le
  | utf32
  | utf32be
  | utf32le
deriving DecidableEq, Repr

def detectEncoding (b : List UInt8) : TextEncoding :=
  if [0x00, 0x00, 0xfe, 0xff].isPrefixOf b || [0xff, 0xfe, 0x00, 0x00].isPrefixOf b then .utf32
  else if [0xfe, 0xff].isPrefixOf b || [0xff, 0xfe].isPrefixOf b then .utf16
  else if [0xef, 0xbb, 0xbf].isPrefixOf b then .utf8Sig
  else match b with
    | b₀ :: b₁ :: b₂ :: b₃ :: _ =>
        if b₀ = 0 then if b₁ = 0 then .utf32be else .utf16be
        else if b₁ = 0 then if b₂ = 0 ∧ b₃ = 0 then .utf32le else .utf16le
        else .utf8
    | [b₀, b₁] => if b₀ = 0 then .utf16be else if b₁ = 0 then .utf16le else .utf8
    | _ => .utf8

/-- `json.loads` of bytes. `foreign` reads those that are not in UTF-8, and those whose UTF-8
encodes surrogates. -/
def loadsBytes (foreign : TextEncoding → ByteArray → Option Json) (depth : ℕ)
    (raw : ByteArray) : Option Json :=
  match detectEncoding raw.data.toList with
  | .utf8 =>
      match String.fromUTF8? raw with
      | some text => loads depth text
      | none => foreign .utf8 raw
  | encoding => foreign encoding raw

/-- What `ingest` decodes from a body that is verified. -/
def ingestObject (foreign : TextEncoding → ByteArray → Option Json) (depth : ℕ)
    (raw : ByteArray) : Except IngestionError Json :=
  match loadsBytes foreign depth raw with
  | none => .error .malformedInput
  | some payload => if payload.isObject then .ok payload else .error .malformedInput

/-! ## The request -/

/-- `TRANSMISSION_HEADER_FIELDS`. -/
def transmissionHeaderFields : List (String × String) :=
  [("paypal-auth-algo", "auth_algo"), ("paypal-cert-url", "cert_url"),
    ("paypal-transmission-id", "transmission_id"),
    ("paypal-transmission-sig", "transmission_sig"),
    ("paypal-transmission-time", "transmission_time")]

/-- `str.isspace` of a character. -/
def isPySpace (c : Char) : Bool :=
  let n := c.toNat
  (0x09 ≤ n && n ≤ 0x0d) || (0x1c ≤ n && n ≤ 0x20) || n == 0x85 || n == 0xa0 || n == 0x1680 ||
    (0x2000 ≤ n && n ≤ 0x200a) || n == 0x2028 || n == 0x2029 || n == 0x202f || n == 0x205f ||
    n == 0x3000

/-- Take a header, whose name or value is `none` if it is no string. -/
def addTransmissionField (lower : String → String) (fields : List (String × String))
    (header : Option String × Option String) : Except IngestionError (List (String × String)) :=
  match header.1.bind fun name => transmissionHeaderFields.lookup (lower name), header.2 with
  | some fieldName, some value =>
      if value.toList.all isPySpace then .ok fields
      else match fields.lookup fieldName with
        | some old => if old ≠ value then .error .invalidWebhookSignature else .ok fields
        | none => .ok (fields ++ [(fieldName, value)])
  | _, _ => .ok fields

/-- `_transmission_fields`. -/
def transmissionFields (lower : String → String) (headers : List (Option String × Option String)) :
    Except IngestionError (List (String × String)) := do
  let fields ← headers.foldlM (addTransmissionField lower) []
  if transmissionHeaderFields.any fun header => (fields.lookup header.2).isNone then
    throw .invalidWebhookSignature
  return fields

/-- `_verification_request_body` of bytes. -/
def verificationRequestBody (depth : ℕ) (transmission : List (String × String))
    (webhookId : String) (raw : ByteArray) : Except IngestionError ByteArray := do
  let some event := (String.fromUTF8? raw).bind (loads depth) | throw .malformedInput
  if !event.isObject then throw .malformedInput
  let start := (JsonText.dumpStrings (dictSet transmission "webhook_id" webhookId)).dropLast
  return (String.ofList start).toUTF8 ++ ",\"webhook_event\":".toUTF8 ++ raw ++ "\x7d".toUTF8

/-! ## Two readings of the same bytes -/

section Bytes
variable {raw : ByteArray} {text : String} {foreign : TextEncoding → ByteArray → Option Json}
  {depth : ℕ}

theorem fromUTF8_eq_some : String.fromUTF8? raw = some text ↔ raw = text.toByteArray := by
  unfold String.fromUTF8?
  constructor
  · intro h
    split at h
    · cases h
      rfl
    · cases h
  · rintro rfl
    rw [dif_pos text.isValidUTF8]
    rfl

theorem detectEncoding_ascii {b₀ b₁ : UInt8} {rest : List UInt8} (h₀ : b₀ ≠ 0) (h₀' : b₀ < 0x80)
    (h₁ : b₁ ≠ 0) : detectEncoding (b₀ :: b₁ :: rest) = .utf8 := by
  have hmark : ∀ b : UInt8, 0x80 ≤ b → b ≠ b₀ := by
    rintro b hb rfl
    exact absurd h₀' (UInt8.not_lt.mpr hb)
  have hff : (0xff : UInt8) ≠ b₀ := hmark 0xff (by decide)
  have hfe : (0xfe : UInt8) ≠ b₀ := hmark 0xfe (by decide)
  have hef : (0xef : UInt8) ≠ b₀ := hmark 0xef (by decide)
  have hzero : (0 : UInt8) ≠ b₀ := h₀.symm
  unfold detectEncoding
  simp only [List.isPrefixOf_cons_cons, beq_eq_false_iff_ne.mpr hff, beq_eq_false_iff_ne.mpr hfe,
    beq_eq_false_iff_ne.mpr hef, beq_eq_false_iff_ne.mpr hzero, Bool.false_and, Bool.or_self,
    Bool.false_eq_true, if_false]
  rcases rest with - | ⟨b₂, - | ⟨b₃, rest⟩⟩
  · simp [h₀, h₁]
  · rfl
  · simp [h₀, h₁]

/-- A character at the front of an object is one byte. -/
theorem utf8EncodeChar_front {c : Char} (h : JsonText.isFront c = true) :
    ∃ b, String.utf8EncodeChar c = [b] ∧ b ≠ 0 ∧ b < 0x80 := by
  simp only [JsonText.isFront, JsonText.isSpace, Bool.or_eq_true, beq_iff_eq] at h
  rcases h with (((((rfl | rfl) | rfl) | rfl) | rfl) | rfl) | rfl
  all_goals exact ⟨_, rfl, by decide, by decide⟩

/-- Bytes that are an object in UTF-8 are detected as such. -/
theorem detectEncoding_object {ms : List (List ℕ × Tree)}
    (h : JsonText.parse depth text.toList = some (.obj ms)) :
    detectEncoding text.toByteArray.data.toList = .utf8 := by
  obtain ⟨a, b, rest, htext, ha, hb⟩ := JsonText.parse_front h
  obtain ⟨b₀, hb₀, hne₀, hlt₀⟩ := utf8EncodeChar_front ha
  obtain ⟨b₁, hb₁, hne₁, -⟩ := utf8EncodeChar_front hb
  have hbytes : text.toByteArray.data.toList =
      b₀ :: b₁ :: rest.flatMap String.utf8EncodeChar := by
    rw [← String.utf8Encode_toList, htext, List.utf8Encode]
    simp [hb₀, hb₁]
  rw [hbytes]
  exact detectEncoding_ascii hne₀ hlt₀ hne₁

/-- The text of an object is read alike from its bytes. -/
theorem loadsBytes_object {ms : List (List ℕ × Tree)} {depth' : ℕ}
    (h : JsonText.parse depth text.toList = some (.obj ms)) :
    loadsBytes foreign depth' text.toByteArray = loads depth' text := by
  rw [loadsBytes, detectEncoding_object h]
  simp only [fromUTF8_eq_some.mpr rfl]

/-- An object is the value of an object text. -/
theorem loads_object {payload : Json} (h : loads depth text = some payload)
    (hobject : payload.isObject = true) :
    ∃ ms, JsonText.parse depth text.toList = some (.obj ms) ∧
      Json.ofTree (.obj ms) = some payload := by
  obtain ⟨tree, htree, hvalue⟩ := Option.bind_eq_some_iff.mp h
  cases tree with
  | obj ms => exact ⟨ms, htree, hvalue⟩
  | null | bool | str =>
      simp only [Json.ofTree, Option.some.injEq] at hvalue
      subst hvalue
      cases hobject
  | number n =>
      simp only [Json.ofTree, Json.ofNumeral] at hvalue
      split_ifs at hvalue <;> cases hvalue <;> cases hobject
  | arr items =>
      simp only [Json.ofTree] at hvalue
      obtain ⟨values, -, rfl⟩ := Option.map_eq_some_iff.mp hvalue
      cases hobject

end Bytes

/-! ## The transmission fields -/

section Fields
variable {lower : String → String} {headers : List (Option String × Option String)}
  {fields fields' : List (String × String)} {header : Option String × Option String}

/-- The value of a field is the value of a header that names it. -/
def HeaderValue (lower : String → String) (headers : List (Option String × Option String))
    (field : String × String) : Prop :=
  ∃ name, (some name, some field.2) ∈ headers ∧
    transmissionHeaderFields.lookup (lower name) = some field.1

/-- Fields of distinct names, with values of the headers. -/
structure FieldsOf (lower : String → String) (headers : List (Option String × Option String))
    (fields : List (String × String)) : Prop where
  names_nodup : (fields.map Prod.fst).Nodup
  value : ∀ field ∈ fields, HeaderValue lower headers field

theorem lookup_eq_none {name : String} :
    fields.lookup name = none ↔ name ∉ fields.map Prod.fst := by
  rw [List.lookup_eq_none_iff]
  simp only [List.mem_map, not_exists, not_and, bne_iff_ne, ne_eq]
  exact ⟨fun h x hx heq => h x hx heq.symm, fun h x hx heq => h x hx heq.symm⟩

theorem FieldsOf.add (h : FieldsOf lower headers fields) (hheader : header ∈ headers)
    (hadd : addTransmissionField lower fields header = .ok fields') :
    FieldsOf lower headers fields' := by
  obtain ⟨name?, value?⟩ := header
  unfold addTransmissionField at hadd
  dsimp only at hadd
  split at hadd
  · rename_i fieldName value hname
    obtain ⟨name, rfl, hfield⟩ := Option.bind_eq_some_iff.mp hname
    split at hadd
    · cases hadd
      exact h
    · split at hadd
      · split at hadd
        · cases hadd
        · cases hadd
          exact h
      · rename_i hnone
        cases hadd
        have hnew : fieldName ∉ fields.map Prod.fst := lookup_eq_none.mp hnone
        refine ⟨?_, ?_⟩
        · rw [List.map_append]
          exact h.names_nodup.append (List.nodup_singleton _) (by simpa using hnew)
        · intro field hmem
          rcases List.mem_append.mp hmem with hold | hlast
          · exact h.value field hold
          · obtain rfl := List.mem_singleton.mp hlast
            exact ⟨name, hheader, hfield⟩
  · cases hadd
    exact h

theorem fieldsOf_foldlM {hs : List (Option String × Option String)} (hsub : hs ⊆ headers)
    (h : FieldsOf lower headers fields)
    (hfold : hs.foldlM (addTransmissionField lower) fields = .ok fields') :
    FieldsOf lower headers fields' := by
  induction hs generalizing fields with
  | nil =>
      cases hfold
      exact h
  | cons header hs ih =>
      rw [List.foldlM_cons] at hfold
      cases hadd : addTransmissionField lower fields header with
      | error err =>
          rw [hadd] at hfold
          cases hfold
      | ok added =>
          rw [hadd] at hfold
          exact ih (fun x hx => hsub (List.mem_cons_of_mem _ hx))
            (h.add (hsub List.mem_cons_self) hadd) hfold

/-- The fields are the five of the request, each with a value of the headers. -/
theorem transmissionFields_spec (h : transmissionFields lower headers = .ok fields) :
    (fields.map Prod.fst).Perm (transmissionHeaderFields.map Prod.snd) ∧
      ∀ field ∈ fields, HeaderValue lower headers field := by
  simp only [transmissionFields, bind, Except.bind, pure, Except.pure, throw, throwThe,
    MonadExceptOf.throw] at h
  split at h
  · cases h
  · rename_i found hfold
    split at h
    · cases h
    · rename_i hmissing
      cases h
      have hempty : FieldsOf lower headers [] := ⟨List.nodup_nil, nofun⟩
      have hfields := fieldsOf_foldlM (List.Subset.refl headers) hempty hfold
      refine ⟨(List.perm_ext_iff_of_nodup hfields.names_nodup (by decide)).mpr fun name => ?_,
        hfields.value⟩
      constructor
      · intro hname
        obtain ⟨field, hfield, rfl⟩ := List.mem_map.mp hname
        obtain ⟨header, -, hlookup⟩ := hfields.value field hfield
        obtain ⟨before, after, htable, -⟩ := List.lookup_eq_some_iff.mp hlookup
        rw [htable]
        simp
      · intro hname
        obtain ⟨header, hheader, rfl⟩ := List.mem_map.mp hname
        by_contra hnot
        refine hmissing (List.any_eq_true.mpr ⟨header, hheader, ?_⟩)
        rw [lookup_eq_none.mpr hnot]
        rfl

end Fields

/-! ## Integrity -/

/-- The bytes are the text of a value, in UTF-8. -/
def TextOf (bytes : ByteArray) (depth : ℕ) (tree : Tree) : Prop :=
  ∃ text, String.fromUTF8? bytes = some text ∧ JsonText.parse depth text.toList = some tree

/-- The members of a request: the transmission fields, the webhook's id and its event. -/
def requestMembers (transmission : List (String × String)) (webhookId : String)
    (event : List (List ℕ × Tree)) : List (List ℕ × Tree) :=
  JsonText.stringMembers (transmission ++ [("webhook_id", webhookId)]) ++
    [(JsonText.codePoints "webhook_event", .obj event)]

/-- The request is one object of the members it was built from, whose names are distinct. It
has the body in it as it came, and the event in it is the object that `ingest` decodes. -/
structure BodyIntegrity (transmission : List (String × String)) (webhookId : String)
    (raw bytes : ByteArray) (depth : ℕ) (event : List (List ℕ × Tree)) : Prop where
  verbatim : ∃ front : String,
    bytes = front.toUTF8 ++ ",\"webhook_event\":".toUTF8 ++ raw ++ "\x7d".toUTF8
  raw_reads : TextOf raw depth (.obj event)
  reads : ∀ depth', depth < depth' →
    TextOf bytes depth' (.obj (requestMembers transmission webhookId event))
  reads_only : ∀ depth' tree, TextOf bytes depth' tree →
    tree = .obj (requestMembers transmission webhookId event)
  names_nodup : ((requestMembers transmission webhookId event).map Prod.fst).Nodup
  ingested : ∃ payload, Json.ofTree (.obj event) = some payload ∧
    (∀ foreign depth' payload', ingestObject foreign depth' raw = .ok payload' →
      payload' = payload) ∧
    ∀ foreign depth', depth ≤ depth' → ingestObject foreign depth' raw = .ok payload

section Integrity
variable {lower : String → String} {headers : List (Option String × Option String)}
  {transmission : List (String × String)} {webhookId : String} {raw bytes : ByteArray}
  {depth : ℕ}

theorem TextOf.unique {depth' : ℕ} {tree tree' : Tree} (h : TextOf bytes depth tree)
    (h' : TextOf bytes depth' tree') : tree' = tree := by
  obtain ⟨text, htext, hparse⟩ := h
  obtain ⟨text', htext', hparse'⟩ := h'
  cases htext.symm.trans htext'
  exact JsonText.parse_unique hparse' hparse

theorem dictSet_of_notMem {name : String} {value : String}
    (h : name ∉ transmission.map Prod.fst) :
    dictSet transmission name value = transmission ++ [(name, value)] := if_neg h

/-- The request's text is the body's text, spliced into an object of strings. -/
theorem toUTF8_splice {members : List (String × String)} {text : String} :
    (String.ofList (JsonText.dumpStrings members).dropLast).toUTF8 ++
        ",\"webhook_event\":".toUTF8 ++ text.toByteArray ++ "\x7d".toUTF8 =
      (String.ofList (JsonText.splice members "webhook_event" text.toList)).toByteArray := by
  have hquote : ',' :: JsonText.quote "webhook_event" ++ [':'] =
      (",\"webhook_event\":" : String).toList := by decide +kernel
  have hsplice : JsonText.splice members "webhook_event" text.toList =
      (JsonText.dumpStrings members).dropLast ++ (",\"webhook_event\":" : String).toList ++
        text.toList ++ ("\x7d" : String).toList := by
    rw [← hquote, JsonText.splice]
    simp
  rw [hsplice, String.ofList_append, String.ofList_append, String.ofList_append]
  simp only [String.toByteArray_append, String.ofList_toList, String.toUTF8_eq_toByteArray]

theorem requestMembers_nodup {event : List (List ℕ × Tree)}
    (h : (transmission.map Prod.fst).Perm (transmissionHeaderFields.map Prod.snd)) :
    ((requestMembers transmission webhookId event).map Prod.fst).Nodup := by
  have hnames : (requestMembers transmission webhookId event).map Prod.fst =
      (transmission.map Prod.fst ++ ["webhook_id", "webhook_event"]).map
        JsonText.codePoints := by
    simp [requestMembers, JsonText.stringMembers, Function.comp_def]
  rw [hnames]
  exact ((h.append_right _).map _).nodup_iff.mpr (by decide +kernel)

theorem verificationRequestBody_ok
    (h : verificationRequestBody depth transmission webhookId raw = .ok bytes) :
    ∃ text payload, raw = text.toByteArray ∧ loads depth text = some payload ∧
      payload.isObject = true ∧
      bytes = (String.ofList (JsonText.dumpStrings
        (dictSet transmission "webhook_id" webhookId)).dropLast).toUTF8 ++
          ",\"webhook_event\":".toUTF8 ++ raw ++ "\x7d".toUTF8 := by
  simp only [verificationRequestBody, bind, Except.bind, pure, Except.pure, throw, throwThe,
    MonadExceptOf.throw] at h
  split at h
  · rename_i payload hpayload
    obtain ⟨text, htext, hloads⟩ := Option.bind_eq_some_iff.mp hpayload
    split at h
    · cases h
    · rename_i hobject
      cases h
      exact ⟨text, payload, fromUTF8_eq_some.mp htext, hloads, by simpa using hobject, rfl⟩
  · cases h

/-- Wherever the request's body is accepted, its parts keep apart. -/
theorem verificationRequestBody_integrity
    (hfields : transmissionFields lower headers = .ok transmission)
    (hbody : verificationRequestBody depth transmission webhookId raw = .ok bytes) :
    ((transmission.map Prod.fst).Perm (transmissionHeaderFields.map Prod.snd) ∧
        ∀ field ∈ transmission, HeaderValue lower headers field) ∧
      ∃ event, BodyIntegrity transmission webhookId raw bytes depth event := by
  have hspec := transmissionFields_spec hfields
  refine ⟨hspec, ?_⟩
  obtain ⟨text, payload, rfl, hloads, hobject, rfl⟩ := verificationRequestBody_ok hbody
  obtain ⟨ms, hparse, hvalue⟩ := loads_object hloads hobject
  have hnew : "webhook_id" ∉ transmission.map Prod.fst := by
    intro hmem
    exact absurd (hspec.1.mem_iff.mp hmem) (by decide)
  have hreads : ∀ depth', depth < depth' → TextOf _ depth'
      (.obj (requestMembers transmission webhookId ms)) := fun depth' hdepth =>
    ⟨_, fromUTF8_eq_some.mpr rfl, by
      rw [String.toList_ofList]
      exact JsonText.parse_splice (by simp) hdepth hparse⟩
  rw [dictSet_of_notMem hnew, toUTF8_splice]
  have hread : ∀ foreign depth', loadsBytes foreign depth' text.toByteArray =
      loads depth' text := fun foreign depth' => loadsBytes_object hparse
  refine ⟨ms, ?_, ⟨text, fromUTF8_eq_some.mpr rfl, hparse⟩, hreads, fun depth' tree htree =>
    (hreads (depth + 1) depth.lt_succ_self).unique htree, ?_, payload, hvalue,
    fun foreign depth' payload' h => ?_, fun foreign depth' hdepth => ?_⟩
  · exact ⟨_, toUTF8_splice.symm⟩
  · exact requestMembers_nodup hspec.1
  · rw [ingestObject, hread] at h
    obtain ⟨tree', hparse', hvalue'⟩ : ∃ tree', JsonText.parse depth' text.toList = some tree' ∧
        Json.ofTree tree' = some payload' := by
      split at h
      · cases h
      · rename_i found hfound
        split at h
        · cases h
          exact Option.bind_eq_some_iff.mp hfound
        · cases h
    cases JsonText.parse_unique hparse hparse'
    exact Option.some.inj (hvalue'.symm.trans hvalue)
  · have hloads' : loads depth' text = some payload := by
      rw [loads, JsonText.parse_mono hdepth hparse, Option.bind_some, hvalue]
    rw [ingestObject, hread, hloads']
    exact if_pos hobject

end Integrity

namespace VerificationExample

def headers : List (Option String × Option String) :=
  [(some "host", some "shop.example"), (some "paypal-auth-algo", some "SHA256withRSA"),
    (some "paypal-cert-url", some "https://api.paypal.com/cert"),
    (some "paypal-transmission-id", some "T\"1"), (some "paypal-transmission-sig", some "é="),
    (some "paypal-transmission-time", some "2024-01-01T00:00:00Z")]

/-- A body that repeats a name of the request, and a name of its own. -/
def body : String := "\x7b\"webhook_id\": 1, \"id\": 2, \"id\": 3\x7d\n"

end VerificationExample

open VerificationExample in
theorem verificationRequestBody_integrity_example :
    ∃ transmission bytes event, transmissionFields id headers = .ok transmission ∧
      verificationRequestBody 2 transmission "W-1" body.toUTF8 = .ok bytes ∧
      BodyIntegrity transmission "W-1" body.toUTF8 bytes 2 event := by
  cases hfields : transmissionFields id headers with
  | error err =>
      have h : (transmissionFields id headers).isOk = true := by decide +kernel
      rw [hfields] at h
      cases h
  | ok transmission =>
      cases hbody : verificationRequestBody 2 transmission "W-1" body.toUTF8 with
      | error err =>
          have htext : String.fromUTF8? body.toUTF8 = some body := fromUTF8_eq_some.mpr rfl
          have h : ((loads 2 body).map Json.isObject) = some true := by decide +kernel
          obtain ⟨payload, hpayload, hobject⟩ := Option.map_eq_some_iff.mp h
          simp only [verificationRequestBody, htext, Option.bind_some, hpayload, hobject] at hbody
          cases hbody
      | ok bytes =>
          obtain ⟨-, event, hintegrity⟩ := verificationRequestBody_integrity hfields hbody
          exact ⟨transmission, bytes, event, rfl, hbody, hintegrity⟩

end RevenueRecovery
