import Rejoin.Json.Forms
import Rejoin.Proofs.Json.Records

/-! The JSON forms of settings and of close statuses, and what they are read back as. -/

namespace Rejoin

open Json

theorem Json.decodeNatural_eq_ok_iff {bound value : Nat} {found : Json} :
    decodeNatural bound found = .ok value ↔
      ∃ word, found = .number (.natural word) ∧ word.toNat ≤ bound ∧ word.toNat = value := by
  constructor
  · intro h
    unfold decodeNatural at h
    split at h
    case h_1 word =>
        split at h
        case isTrue hbound => exact ⟨word, rfl, hbound, Except.ok.inj h⟩
        case isFalse => cases h
    case h_2 => cases h
  · rintro ⟨word, rfl, hbound, rfl⟩
    exact if_pos hbound

namespace Settings

theorem decodeWord_eq_ok_iff {found : Json} {word : UInt64} :
    decodeWord found = .ok word ↔ found = .number (.natural word) := by
  rw [decodeWord, bind_eq_ok_iff]
  constructor
  · rintro ⟨_, hvalue, hword⟩
    obtain ⟨read, rfl, -, rfl⟩ := decodeNatural_eq_ok_iff.1 hvalue
    rw [← Except.ok.inj hword, UInt64.ofNat_toNat]
  · rintro rfl
    exact ⟨_, decodeNatural_eq_ok_iff.2 ⟨word, rfl, Nat.le_of_lt_succ word.toNat_lt, rfl⟩,
      congrArg Except.ok UInt64.ofNat_toNat⟩

theorem toNat_codeWord (code : UInt16) : (UInt64.ofNat code.toNat).toNat = code.toNat :=
  UInt64.toNat_ofNat_of_lt' (Nat.lt_trans code.toNat_lt (by decide))

theorem decodeCode_eq_ok_iff {found : Json} {code : UInt16} :
    decodeCode found = .ok code ↔ found = codeJson code := by
  rw [decodeCode, bind_eq_ok_iff]
  constructor
  · rintro ⟨_, hvalue, hcode⟩
    obtain ⟨word, rfl, hbound, rfl⟩ := decodeNatural_eq_ok_iff.1 hvalue
    obtain rfl := Except.ok.inj hcode
    rw [codeJson, UInt16.toNat_ofNat_of_lt' (Nat.lt_succ_of_le hbound), UInt64.ofNat_toNat]
  · rintro rfl
    exact ⟨code.toNat, decodeNatural_eq_ok_iff.2 ⟨_, rfl,
      (toNat_codeWord code).symm ▸ Nat.le_of_lt_succ code.toNat_lt, toNat_codeWord code⟩,
      congrArg Except.ok UInt16.ofNat_toNat⟩

theorem decodeItems_eq_ok_iff {items : List Json} {ending : Ending} {codes : List UInt16} :
    decodeItems decodeCode items ending = .ok codes ↔
      items = codes.map codeJson ∧ ending = .closed := by
  constructor
  · intro h
    induction items generalizing codes with
    | nil =>
        cases ending with
        | closed =>
            cases h
            exact ⟨rfl, rfl⟩
        | cut => cases h
    | cons item items ih =>
        obtain ⟨code, hcode, hrest⟩ := bind_eq_ok_iff.1 h
        obtain ⟨codes, hcodes, ⟨⟩⟩ := bind_eq_ok_iff.1 hrest
        obtain ⟨rfl, rfl⟩ := ih hcodes
        exact ⟨congrArg (· :: _) (decodeCode_eq_ok_iff.1 hcode), rfl⟩
  · rintro ⟨rfl, rfl⟩
    induction codes with
    | nil => rfl
    | cons code codes ih =>
        exact bind_eq_ok_iff.2
          ⟨code, decodeCode_eq_ok_iff.2 rfl, bind_eq_ok_iff.2 ⟨codes, ih, rfl⟩⟩

theorem decodeList_eq_ok_iff {found : Json} {codes : List UInt16} :
    decodeList decodeCode found = .ok codes ↔ found = .array (codes.map codeJson) .closed := by
  cases found with
  | array items ending => rw [decodeList, decodeItems_eq_ok_iff, Json.array.injEq]
  | null | boolean | number | text | object | missing | brokenText | broken =>
      exact ⟨nofun, nofun⟩

/-! ### The fields -/

/-- The fields of settings, in the order of their declaration. -/
inductive Field where
  | firstBackoffMillis
  | maxBackoffMillis
  | maxRetries
  | jitterFactor
  | nonRetryableCodes
  deriving DecidableEq

namespace Field

def all : List Field :=
  [.firstBackoffMillis, .maxBackoffMillis, .maxRetries, .jitterFactor, .nonRetryableCodes]

def name : Field → String
  | .firstBackoffMillis => "first_backoff_ms"
  | .maxBackoffMillis => "max_backoff_ms"
  | .maxRetries => "max_retries"
  | .jitterFactor => "jitter_factor"
  | .nonRetryableCodes => "non_retryable_codes"

def Value : Field → Type
  | .firstBackoffMillis | .maxBackoffMillis | .maxRetries => UInt64
  | .jitterFactor => Binary64
  | .nonRetryableCodes => List UInt16

/-- The values that a field can have in a document, and what they stand for. -/
def Shows : (field : Field) → Json → field.Value → Prop
  | .firstBackoffMillis, found, word | .maxBackoffMillis, found, word | .maxRetries, found, word =>
    found = .number (.natural word)
  | .jitterFactor, found, factor =>
    found = .number (.float factor) ∨
      (∃ whole : UInt64, found = .number (.natural whole) ∧ factor = .ofNat whole.toNat) ∨
      ∃ whole : UInt64, found = .number (.negative whole) ∧ factor = .ofRatio true whole.toNat 1
  | .nonRetryableCodes, found, codes => found = .array (codes.map codeJson) .closed

def decode : (field : Field) → Json → Decoded field.Value
  | .firstBackoffMillis | .maxBackoffMillis | .maxRetries => decodeWord
  | .jitterFactor => decodeBinary64
  | .nonRetryableCodes => decodeList decodeCode

theorem decode_eq_ok_iff {field : Field} {found : Json} {value : field.Value} :
    field.decode found = .ok value ↔ field.Shows found value := by
  cases field with
  | firstBackoffMillis | maxBackoffMillis | maxRetries => exact decodeWord_eq_ok_iff
  | jitterFactor =>
      change decodeBinary64 found = .ok value ↔ _
      constructor
      · intro h
        rw [decodeBinary64.eq_def] at h
        split at h
        case h_1 word => exact .inr (.inl ⟨word, rfl, (Except.ok.inj h).symm⟩)
        case h_2 word => exact .inr (.inr ⟨word, rfl, (Except.ok.inj h).symm⟩)
        case h_3 factor => exact .inl (congrArg _ (congrArg _ (Except.ok.inj h)))
        case h_4 => cases h
      · rintro (rfl | ⟨word, rfl, rfl⟩ | ⟨word, rfl, rfl⟩) <;> rfl
  | nonRetryableCodes => exact decodeList_eq_ok_iff

def partial? : (field : Field) → Settings.Partial → Option field.Value
  | .firstBackoffMillis, record => record.firstBackoffMillis
  | .maxBackoffMillis, record => record.maxBackoffMillis
  | .maxRetries, record => record.maxRetries
  | .jitterFactor, record => record.jitterFactor
  | .nonRetryableCodes, record => record.nonRetryableCodes

def put : (field : Field) → field.Value → Settings.Partial → Settings.Partial
  | .firstBackoffMillis, word, record => { record with firstBackoffMillis := some word }
  | .maxBackoffMillis, word, record => { record with maxBackoffMillis := some word }
  | .maxRetries, word, record => { record with maxRetries := some word }
  | .jitterFactor, factor, record => { record with jitterFactor := some factor }
  | .nonRetryableCodes, codes, record => { record with nonRetryableCodes := some codes }

end Field

/-- What settings have in a field. -/
def get (settings : Settings) : (field : Field) → field.Value
  | .firstBackoffMillis => settings.firstBackoffMillis
  | .maxBackoffMillis => settings.maxBackoffMillis
  | .maxRetries => settings.maxRetries
  | .jitterFactor => settings.jitterFactor
  | .nonRetryableCodes => settings.nonRetryableCodes

def form : Form Settings.Partial where
  Field := Field
  all := Field.all
  Value := Field.Value
  name := Field.name
  decode := Field.decode
  get := Field.partial?
  set := Field.put
  mem_all field := by cases field <;> decide
  nodup_all := by decide
  name_injective {field other} := by cases field <;> cases other <;> decide
  get_set field _ _ := by cases field <;> rfl
  get_set_of_ne {field other} hne _ _ := by
    cases field <;> cases other <;> first | rfl | exact absurd rfl hne

theorem fields_eq : fields = form.slots := rfl

/-- An object whose keys are texts, those of the fields once each at most and with values of theirs,
and any others with any values that the text holds completely. -/
structure Legible (members : List (Option String × Json)) : Prop where
  keyed : ∀ member ∈ members, ∃ key, member.1 = some key
  once : ∀ field : Field, (members.map Prod.fst).count (some field.name) ≤ 1
  known : ∀ (field : Field) (found : Json), (some field.name, found) ∈ members →
    ∃ value, field.Shows found value
  unknown : ∀ key found, (some key, found) ∈ members → (∀ field : Field, field.name ≠ key) →
    found.Whole

variable {members others : List (Option String × Json)} {settings : Settings}

theorem Legible.readable (h : Legible members) : ∀ member ∈ members, form.Readable member := by
  rintro ⟨key, found⟩ hmem
  obtain ⟨key, rfl⟩ := h.keyed _ hmem
  by_cases hkey : ∃ field : Field, field.name = key
  · obtain ⟨field, rfl⟩ := hkey
    obtain ⟨value, hshows⟩ := h.known field found hmem
    exact Form.Readable.known (Field.decode_eq_ok_iff.2 hshows)
  · have hkey := not_exists.1 hkey
    exact .unknown hkey (h.unknown key found hmem hkey).skip?_eq_none

/-- The order of the members makes no difference. -/
theorem Legible.perm (h : Legible members) (hperm : members.Perm others) : Legible others where
  keyed member hmem := h.keyed member (hperm.mem_iff.2 hmem)
  once field := (hperm.map Prod.fst).count_eq _ ▸ h.once field
  known field found hmem := h.known field found (hperm.mem_iff.2 hmem)
  unknown key found hmem := h.unknown key found (hperm.mem_iff.2 hmem)

theorem ofJson_of_reads {record : Settings.Partial} (h : form.Reads {} members record) :
    ofJson (.object members .closed) = .ok record.complete := by
  rw [ofJson, fillRecord, fields_eq, h.fillMembers_eq]
  rfl

/-- What stands in an object for a field, and the default where nothing does. -/
structure Field.Given (members : List (Option String × Json)) (settings : Settings) (field : Field) :
    Prop where
  present : ∀ found, (some field.name, found) ∈ members → field.Shows found (settings.get field)
  absent : some field.name ∉ members.map Prod.fst → settings.get field = default.get field

theorem get_empty (field : Field) : form.get field {} = none := by cases field <;> rfl

theorem get_complete (record : Settings.Partial) (field : Field) :
    record.complete.get field = (form.get field record).getD (default.get field) := by
  cases field <;> rfl

theorem ext_get {settings others : Settings} (h : ∀ field, settings.get field = others.get field) :
    settings = others := by
  obtain ⟨first, max, retries, factor, codes⟩ := settings
  obtain rfl : first = others.firstBackoffMillis := h .firstBackoffMillis
  obtain rfl : max = others.maxBackoffMillis := h .maxBackoffMillis
  obtain rfl : retries = others.maxRetries := h .maxRetries
  obtain rfl : factor = others.jitterFactor := h .jitterFactor
  obtain rfl : codes = others.nonRetryableCodes := h .nonRetryableCodes
  rfl

theorem given_of_reads {record : Settings.Partial} (h : form.Reads {} members record)
    (field : Field) : field.Given members record.complete where
  present found hmem := by
    obtain ⟨value, hvalue, hget⟩ := h.get_of_mem hmem
    rw [get_complete, hget]
    exact Field.decode_eq_ok_iff.1 hvalue
  absent habsent := by
    rw [get_complete, h.get_of_absent habsent, get_empty]
    rfl

theorem Legible.exists_settings (h : Legible members) :
    ∃ settings, ofJson (.object members .closed) = .ok settings ∧
      ∀ field : Field, field.Given members settings := by
  obtain ⟨record, hreads⟩ := Form.exists_reads h.readable h.once fun field _ => get_empty field
  exact ⟨record.complete, ofJson_of_reads hreads, given_of_reads hreads⟩

/-- Settings that are given by the same values are the same. -/
theorem eq_of_given {settings twins : Settings}
    (hsame : ∀ (field : Field) (found : Json),
      (some field.name, found) ∈ members ↔ (some field.name, found) ∈ others)
    (h : ∀ field : Field, field.Given members settings)
    (htwins : ∀ field : Field, field.Given others twins) : settings = twins := by
  refine ext_get fun field => ?_
  by_cases hnamed : some field.name ∈ members.map Prod.fst
  · obtain ⟨⟨_, found⟩, hmem, rfl⟩ := List.mem_map.1 hnamed
    have hshows := Field.decode_eq_ok_iff.2 ((h field).present found hmem)
    have htwin := Field.decode_eq_ok_iff.2 ((htwins field).present found ((hsame field found).1 hmem))
    exact Except.ok.inj (hshows.symm.trans htwin)
  · have hunnamed : some field.name ∉ others.map Prod.fst := by
      intro hmem
      obtain ⟨⟨_, found⟩, hmem, rfl⟩ := List.mem_map.1 hmem
      exact hnamed (List.mem_map_of_mem ((hsame field found).2 hmem))
    rw [(h field).absent hnamed, (htwins field).absent hunnamed]

theorem Legible.ofJson_eq (h : Legible members) (hothers : Legible others)
    (hsame : ∀ (field : Field) (found : Json),
      (some field.name, found) ∈ members ↔ (some field.name, found) ∈ others) :
    ofJson (.object members .closed) = ofJson (.object others .closed) := by
  obtain ⟨settings, hsettings, hgiven⟩ := h.exists_settings
  obtain ⟨twins, htwins, hgivenTwins⟩ := hothers.exists_settings
  rw [hsettings, htwins, eq_of_given hsame hgiven hgivenTwins]

theorem exists_error_of_repeated (ending : Ending) {field : Field}
    (hrepeated : 1 < (members.map Prod.fst).count (some field.name)) :
    ∃ problem, ofJson (.object members ending) = .error problem := by
  obtain ⟨problem, hproblem⟩ := form.exists_error_of_repeated {} ending hrepeated
  exact ⟨problem, by rw [ofJson, fillRecord, fields_eq, hproblem]; rfl⟩

theorem ofJson_array {items : List Json} (hlength : items.length ≤ Field.all.length) :
    ofJson (.array items .closed) =
      ofJson (.object ((Field.all.map fun field => some field.name).zip items) .closed) := by
  have hsame := Form.fillItems_eq_fillMembers form.nodup_all (fun field _ => get_empty field) hlength
  exact congrArg (· >>= fun record => pure record.complete) hsame

/-! ### Written settings -/

def Field.write : (field : Field) → field.Value → Json
  | .firstBackoffMillis, word | .maxBackoffMillis, word | .maxRetries, word =>
    .number (.natural word)
  | .jitterFactor, factor => .ofBinary64 factor
  | .nonRetryableCodes, codes => .array (codes.map codeJson) .closed

theorem toJson_eq (settings : Settings) :
    settings.toJson = .object (Field.all.map fun field =>
      (some field.name, field.write (settings.get field))) .closed := rfl

theorem shows_write (hfinite : settings.jitterFactor.isFinite) (field : Field) :
    field.Shows (field.write (settings.get field)) (settings.get field) := by
  cases field with
  | firstBackoffMillis | maxBackoffMillis | maxRetries | nonRetryableCodes => rfl
  | jitterFactor => exact .inl (if_pos hfinite)

theorem ofJson_toJson (hfinite : settings.jitterFactor.isFinite) :
    ofJson settings.toJson = .ok settings := by
  obtain ⟨record, hreads, hget⟩ := form.exists_reads_all
    (fun field => Field.decode_eq_ok_iff.2 (shows_write hfinite field)) get_empty
  rw [toJson_eq]
  refine (ofJson_of_reads hreads).trans (congrArg _ (ext_get fun field => ?_))
  have hfield : form.get field record = some (settings.get field) := hget field
  rw [get_complete, hfield]
  rfl

end Settings

namespace CloseStatus

/-- The fields of a close status, in the order of their declaration. -/
inductive Field where
  | code
  | reason
  deriving DecidableEq

namespace Field

def all : List Field := [.code, .reason]

def name : Field → String
  | .code => "code"
  | .reason => "reason"

def Value : Field → Type
  | .code => UInt16
  | .reason => Option String

def decode : (field : Field) → Json → Decoded field.Value
  | .code => Settings.decodeCode
  | .reason => decodeOptionalText

def partial? : (field : Field) → CloseStatus.Partial → Option field.Value
  | .code, record => record.code
  | .reason, record => record.reason

def put : (field : Field) → field.Value → CloseStatus.Partial → CloseStatus.Partial
  | .code, word, record => { record with code := some word }
  | .reason, text, record => { record with reason := some text }

def write : (field : Field) → field.Value → Json
  | .code, word => Settings.codeJson word
  | .reason, text => (text.map Json.ofText).getD .null

theorem decode_write (field : Field) (value : field.Value) :
    field.decode (field.write value) = .ok value := by
  cases field with
  | code => exact Settings.decodeCode_eq_ok_iff.2 rfl
  | reason => cases value <;> rfl

end Field

def get (status : CloseStatus) : (field : Field) → field.Value
  | .code => status.code
  | .reason => status.reason

def form : Json.Form CloseStatus.Partial where
  Field := Field
  all := Field.all
  Value := Field.Value
  name := Field.name
  decode := Field.decode
  get := Field.partial?
  set := Field.put
  mem_all field := by cases field <;> decide
  nodup_all := by decide
  name_injective {field other} := by cases field <;> cases other <;> decide
  get_set field _ _ := by cases field <;> rfl
  get_set_of_ne {field other} hne _ _ := by
    cases field <;> cases other <;> first | rfl | exact absurd rfl hne

theorem get_empty (field : Field) : form.get field {} = none := by cases field <;> rfl

theorem fields_eq : fields = form.slots := by
  have hfill : ∀ found record, (do
        let code ← decodeNatural 0xffff found
        return { record with code := some (UInt16.ofNat code) }) =
      (form.slot .code).fill found record := by
    intro found record
    change _ = (decodeNatural 0xffff found >>= _) >>= _
    cases decodeNatural 0xffff found <;> rfl
  have hcode := funext fun found => funext (hfill found)
  rw [fields, hcode]
  rfl

theorem ofJson_toJson (status : CloseStatus) : ofJson status.toJson = .ok status := by
  obtain ⟨record, hreads, hget⟩ := form.exists_reads_all
    (fun field => field.decode_write (status.get field)) get_empty
  have hfill : ofJson status.toJson = record.complete := by
    change fillMembers fields {} _ .closed >>= Partial.complete = _
    rw [fields_eq]
    exact congrArg (· >>= Partial.complete) hreads.fillMembers_eq
  have hcode : record.code = some status.code := hget .code
  have hreason : record.reason = some status.reason := hget .reason
  rw [hfill, Partial.complete, hcode, hreason]
  rfl

theorem exists_error_of_repeated {members : List (Option String × Json)} (ending : Ending)
    {field : Field} (hrepeated : 1 < (members.map Prod.fst).count (some field.name)) :
    ∃ problem, ofJson (.object members ending) = .error problem := by
  obtain ⟨problem, hproblem⟩ := form.exists_error_of_repeated {} ending hrepeated
  exact ⟨problem, by rw [ofJson, fillRecord, fields_eq, hproblem]; rfl⟩

end CloseStatus

/-- **The JSON form of settings and of close statuses.** Settings with a finite factor and close
statuses are read back as they were written. An object in which the known keys stand at most once each
and with values of theirs is read whatever else stands in it: each field that is there has the value
given, every other one its default, so neither the order of the members nor the unknown ones make a
difference. An object that names a field twice is refused, however it goes on. An array is read as the
object that names its items after the first fields in order. -/
theorem Json.reads_settings_and_statuses :
    (∀ settings : Settings, settings.jitterFactor.isFinite →
      Settings.ofJson settings.toJson = .ok settings) ∧
    (∀ status : CloseStatus, CloseStatus.ofJson status.toJson = .ok status) ∧
    (∀ members, Settings.Legible members →
      ∃ settings, Settings.ofJson (.object members .closed) = .ok settings ∧
        ∀ field : Settings.Field, field.Given members settings) ∧
    (∀ members others, Settings.Legible members → Settings.Legible others →
      (∀ (field : Settings.Field) (found : Json),
        (some field.name, found) ∈ members ↔ (some field.name, found) ∈ others) →
      Settings.ofJson (.object members .closed) = Settings.ofJson (.object others .closed)) ∧
    (∀ members ending (field : Settings.Field),
      1 < (members.map Prod.fst).count (some field.name) →
        ∃ problem, Settings.ofJson (.object members ending) = .error problem) ∧
    (∀ members ending (field : CloseStatus.Field),
      1 < (members.map Prod.fst).count (some field.name) →
        ∃ problem, CloseStatus.ofJson (.object members ending) = .error problem) ∧
    ∀ items : List Json, items.length ≤ Settings.Field.all.length →
      Settings.ofJson (.array items .closed) =
        Settings.ofJson
          (.object ((Settings.Field.all.map fun field => some field.name).zip items) .closed) :=
  ⟨fun _ hfinite => Settings.ofJson_toJson hfinite, CloseStatus.ofJson_toJson,
    fun _ h => h.exists_settings, fun _ _ h hothers hsame => h.ofJson_eq hothers hsame,
    fun _ ending _ hrepeated => Settings.exists_error_of_repeated ending hrepeated,
    fun _ ending _ hrepeated => CloseStatus.exists_error_of_repeated ending hrepeated,
    fun _ hlength => Settings.ofJson_array hlength⟩

/-- Two fields in the wrong order, between members that are not known. -/
def Settings.sketch : List (Option String × Json) :=
  [(some "version", .array [.number (.natural 2), .null] .closed),
    (some "jitter_factor", .number (.natural 1)), (some "max_retries", .number (.natural 3)),
    (some "version", .boolean true)]

theorem Settings.legible_sketch : Legible sketch where
  keyed := by simp [sketch]
  once field := by cases field <;> decide
  known field found hmem := by
    cases field with
    | maxRetries =>
        obtain rfl : found = .number (.natural 3) := by simpa [sketch, Field.name] using hmem
        exact ⟨(3 : UInt64), rfl⟩
    | jitterFactor =>
        obtain rfl : found = .number (.natural 1) := by simpa [sketch, Field.name] using hmem
        exact ⟨Binary64.ofNat 1, .inr (.inl ⟨1, rfl, rfl⟩)⟩
    | firstBackoffMillis | maxBackoffMillis | nonRetryableCodes =>
        simp [sketch, Field.name] at hmem
  unknown key found hmem hkey := by
    simp only [sketch, List.mem_cons, Prod.mk.injEq, Option.some.injEq, List.not_mem_nil,
      or_false] at hmem
    obtain ⟨rfl, rfl⟩ | ⟨rfl, rfl⟩ | ⟨rfl, rfl⟩ | ⟨rfl, rfl⟩ := hmem
    · exact .array (List.forall_mem_cons.2 ⟨.number _, List.forall_mem_singleton.2 .null⟩)
    · exact absurd rfl (hkey .jitterFactor)
    · exact absurd rfl (hkey .maxRetries)
    · exact .boolean true

theorem Json.reads_settings_and_statuses_when_partial : ∃ settings,
    Settings.ofJson (.object Settings.sketch .closed) = .ok settings ∧
      Settings.ofJson (.object Settings.sketch.reverse .closed) = .ok settings ∧
      settings.maxRetries = 3 ∧ settings.firstBackoffMillis = 2000 := by
  obtain ⟨-, -, hreads, hsame, -⟩ := reads_settings_and_statuses
  obtain ⟨settings, hsettings, hgiven⟩ := hreads _ Settings.legible_sketch
  have hturned := Settings.legible_sketch.perm (List.reverse_perm _).symm
  have hshown : Json.number (.natural 3) = .number (.natural settings.maxRetries) :=
    (hgiven .maxRetries).present _ (by simp [Settings.sketch, Settings.Field.name])
  refine ⟨settings, hsettings, ?_, ?_, (hgiven .firstBackoffMillis).absent (by decide)⟩
  · rw [← hsettings]
    exact hsame _ _ hturned Settings.legible_sketch fun _ _ => List.mem_reverse
  · exact (Number.natural.inj (Json.number.inj hshown)).symm

end Rejoin
