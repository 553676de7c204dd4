import ModelBroker.Control.Helper

/-!
# What the helper accepts

* `loadConfig_service`: what a configuration accepted by `load_config` promises of
  its services.
* `parseSettings_eq_ok`: the settings that `parse_settings` accepts, and that it
  returns them as they are.
* `parseRequest_eq_ok`: `parse_request` accepts exactly the `Valid` objects.
-/

namespace ModelBroker.Helper

open Python

/-! ## Configurations -/

/-- What every service of an accepted configuration has. -/
structure Service.Sound (service : Service) (name : String) : Prop where
  name : service.name = name
  allowed : ∀ envName ∈ service.allowedEnv, matchesEnvName envName = true

theorem parseService_sound {name : String} {options defaults : Section} {service : Service}
    (h : parseService name options defaults = .ok service) : service.Sound name := by
  unfold parseService at h
  split_ifs at h
  dsimp only at h
  split at h
  · cases h
  · next hallowed =>
    split_ifs at h
    obtain ⟨grace, -, h⟩ := except_bind_ok.1 h
    obtain ⟨file, -, h⟩ := except_bind_ok.1 h
    obtain ⟨directory, -, h⟩ := except_bind_ok.1 h
    obtain ⟨seconds, -, h⟩ := except_bind_ok.1 h
    cases h
    refine ⟨rfl, fun envName hmem => ?_⟩
    simpa using List.find?_eq_none.1 hallowed envName hmem

theorem parseServices_sound {control : Section} {sections : List (String × Section)}
    {services : List (String × Service)} (h : parseServices control sections = .ok services) :
    services.map Prod.fst = sections.map Prod.fst ∧ ∀ e ∈ services, e.2.Sound e.1 := by
  induction sections generalizing services with
  | nil =>
    cases h
    exact ⟨rfl, fun e he => absurd he List.not_mem_nil⟩
  | cons s rest ih =>
    obtain ⟨service, hservice, h⟩ := except_bind_ok.1 h
    obtain ⟨services', hrest, h⟩ := except_bind_ok.1 h
    cases h
    obtain ⟨hnames, hsound⟩ := ih hrest
    refine ⟨by rw [List.map_cons, List.map_cons, hnames], ?_⟩
    exact List.forall_mem_cons.2 ⟨parseService_sound hservice, hsound⟩

/-- The services of an accepted configuration have their names, and allow only
    names of environment variables. -/
theorem loadConfig_service {sections : Dict String Section} {config : Config}
    (h : loadConfig sections = .ok config) {name : String} {service : Service}
    (hs : config.services.get name = some service) : service.Sound name := by
  unfold loadConfig at h
  split at h
  · cases h
  · next control _ =>
    obtain ⟨services, hservices, h⟩ := except_bind_ok.1 h
    split_ifs at h
    obtain ⟨docker, -, h⟩ := except_bind_ok.1 h
    obtain ⟨start, -, h⟩ := except_bind_ok.1 h
    obtain ⟨stop, -, h⟩ := except_bind_ok.1 h
    cases h
    obtain ⟨hnames, hsound⟩ := parseServices_sound hservices
    have hnodup : (services.map Prod.fst).Nodup := by
      rw [hnames]
      exact (List.filter_sublist.map _).nodup sections.nodup
    have hmem : (name, service) ∈ services := by
      rw [← Dict.entries_ofList hnodup]
      exact Dict.get_eq_some.1 hs
    exact hsound _ hmem

/-- A configuration of one service with one variable. -/
def strataSections : Dict String Section :=
  .ofList [
    ("control", .ofList [("compose-file", "/srv/compose.yaml"), ("project-directory", "/srv"),
      ("project-name", "models")]),
    ("strata", .ofList [("allowed-env", "STRATA_MODEL")])]

theorem strata_configured :
    ∃ config service, loadConfig strataSections = .ok config ∧
      config.services.get "strata" = some service ∧ service.allowedEnv = ["STRATA_MODEL"] := by
  have hallowed : ((loadConfig strataSections).toOption.bind fun config =>
      (config.services.get "strata").map Service.allowedEnv) = some ["STRATA_MODEL"] := by
    decide +kernel
  obtain ⟨config, hconfig, hservice⟩ := Option.bind_eq_some_iff.1 hallowed
  obtain ⟨service, hservice, henv⟩ := Option.map_eq_some_iff.1 hservice
  exact ⟨config, service, except_toOption_eq_some.1 hconfig, hservice, henv⟩

/-- The name of an environment variable has no `=`. -/
theorem no_separator {envName : String} (h : matchesEnvName envName = true) :
    ∀ c ∈ envName.toList, c ≠ '=' := by
  unfold matchesEnvName matchesName at h
  intro c hc
  cases hchars : envName.toList with
  | nil =>
    rw [hchars] at hc
    cases hc
  | cons c' rest =>
    rw [hchars] at h hc
    simp only [Bool.and_eq_true, Bool.or_eq_true, decide_eq_true_eq, List.all_eq_true] at h
    rintro rfl
    rcases List.mem_cons.1 hc with rfl | hmem
    · exact absurd h.1 (by decide)
    · exact absurd (h.2 _ hmem) (by decide)

/-! ## Settings -/

/-- A value that a setting may have (lines 197–201). -/
def Permitted (value : String) : Prop := value.length ≤ maxValueLength ∧ matchesEnvValue value = true

/-- A setting that a service allows. -/
def Service.Allows (service : Service) (entry : String × String) : Prop :=
  entry.1 ∈ service.allowedEnv ∧ Permitted entry.2

/-- The members of the object that settings are sent as. -/
def settingsMembers (entries : List (String × String)) : List (String × Json) :=
  entries.map fun e => (e.1, .str e.2)

theorem parseSetting_eq_ok {service : Service} {settings result : Dict String String}
    {entry : String × Json} :
    parseSetting service settings entry = .ok result ↔
      ∃ value, entry = (entry.1, .str value) ∧ service.Allows (entry.1, value) ∧
        settings.insert entry.1 value = result := by
  obtain ⟨name, value⟩ := entry
  unfold parseSetting Service.Allows Permitted
  cases value with
  | str value =>
    by_cases hname : name ∈ service.allowedEnv <;>
      by_cases hvalue : value.length ≤ maxValueLength ∧ matchesEnvValue value = true <;>
      simp [Json.str?, hname, hvalue]
  | null | bool | int | float | arr | obj =>
    by_cases hname : name ∈ service.allowedEnv <;> simp [Json.str?, hname]

/-- The loop of `parse_settings`. -/
theorem foldlM_parseSetting {service : Service} {members : List (String × Json)}
    {settings result : Dict String String} :
    members.foldlM (parseSetting service) settings = .ok result ↔
      ∃ entries, members = settingsMembers entries ∧ (∀ e ∈ entries, service.Allows e) ∧
        entries.foldl (fun d e => d.insert e.1 e.2) settings = result := by
  induction members generalizing settings with
  | nil =>
    constructor
    · intro h
      cases h
      exact ⟨[], rfl, fun e he => absurd he List.not_mem_nil, rfl⟩
    · rintro ⟨entries, hmembers, -, rfl⟩
      obtain rfl := List.map_eq_nil_iff.1 hmembers.symm
      rfl
  | cons member members ih =>
    rw [List.foldlM_cons, except_bind_ok]
    constructor
    · rintro ⟨next, hnext, h⟩
      obtain ⟨value, hmember, hallows, rfl⟩ := parseSetting_eq_ok.1 hnext
      obtain ⟨entries, rfl, hall, rfl⟩ := ih.1 h
      refine ⟨(member.1, value) :: entries, ?_, List.forall_mem_cons.2 ⟨hallows, hall⟩, rfl⟩
      rw [hmember]
      rfl
    · rintro ⟨entries, hmembers, hall, rfl⟩
      cases entries with
      | nil => cases hmembers
      | cons e entries =>
        obtain ⟨rfl, rfl⟩ := List.cons_eq_cons.1 hmembers
        obtain ⟨hallows, hall⟩ := List.forall_mem_cons.1 hall
        exact ⟨_, parseSetting_eq_ok.2 ⟨e.2, rfl, hallows, rfl⟩, ih.2 ⟨entries, rfl, hall, rfl⟩⟩

/-- `parse_settings` accepts exactly the objects of allowed settings, and returns
    the settings as they are. -/
theorem parseSettings_eq_ok {service : Service} {raw : Json} {settings : Dict String String} :
    parseSettings service raw = .ok settings ↔
      (∃ d, raw.dict? = some d ∧ d.entries = settingsMembers settings.entries) ∧
        ∀ e ∈ settings.entries, service.Allows e := by
  unfold parseSettings
  cases hd : raw.dict? with
  | none => simp
  | some d =>
    dsimp only
    rw [foldlM_parseSetting]
    constructor
    · rintro ⟨entries, hentries, hall, rfl⟩
      have hnodup : (entries.map Prod.fst).Nodup := by
        have hd := d.nodup
        rw [hentries, settingsMembers, List.map_map] at hd
        exact hd
      have hsame : (Dict.ofList entries).entries = entries := Dict.entries_ofList hnodup
      rw [show entries.foldl _ ∅ = Dict.ofList entries from rfl, hsame]
      exact ⟨⟨d, rfl, hentries⟩, hall⟩
    · rintro ⟨⟨d', hd', hentries⟩, hall⟩
      cases hd'
      exact ⟨settings.entries, hentries, hall, Dict.ofList_entries settings⟩

/-! ## Requests -/

/-- A message that the helper accepts as a request: exactly the keys of its
    operation, each with a value of its type. -/
structure Valid (config : Config) (message : Dict String Json) (request : Request) : Prop where
  keys : ∀ key, key ∈ message.keys ↔ key ∈ ["version", "id", "request", "service"] ∨
    (key = "settings" ∧ request.operation = "start")
  version : message.get "version" = some (.int 1)
  id : message.get "id" = some (.str request.id)
  nonempty : request.id ≠ ""
  operation : message.get "request" = some (.str request.operation)
  known : request.operation ∈ operations
  service : ∃ name, message.get "service" = some (.str name) ∧
    config.services.get name = some request.service
  settings : if request.operation = "start" then
      ∃ raw d, message.get "settings" = some raw ∧ raw.dict? = some d ∧
        d.entries = settingsMembers request.settings.entries ∧
        ∀ e ∈ request.settings.entries, request.service.Allows e
    else request.settings = ∅

theorem field_eq_some {message : Dict String Json} {key : String} {value : Json}
    (hvalue : value ≠ .null) :
    Json.field message key = value ↔ message.get key = some value := by
  unfold Json.field
  cases message.get key with
  | none => simp [hvalue.symm]
  | some value' => simp

theorem str?_eq_some {document : Json} {value : String} :
    document.str? = some value ↔ document = .str value := by
  cases document <;> simp [Json.str?]

theorem int?_eq_some {document : Json} {value : ℤ} :
    document.int? = some value ↔ document = .int value := by
  cases document <;> simp [Json.int?]

/-- A field that is a `str`. -/
theorem field_str {message : Dict String Json} {key value : String} :
    (Json.field message key).str? = some value ↔ message.get key = some (.str value) := by
  rw [str?_eq_some, field_eq_some (by simp)]

theorem expectedKeys_str (operation : String) (key : String) :
    key ∈ expectedKeys (.str operation) ↔
      key ∈ ["version", "id", "request", "service"] ∨ (key = "settings" ∧ operation = "start") := by
  unfold expectedKeys Json.equalsStr
  by_cases h : operation = "start" <;> simp [h] <;> grind

/-- The keys are compared as sets. -/
theorem sameKeys_iff {keys expected : List String} :
    (keys.all expected.contains && expected.all keys.contains) = true ↔
      ∀ key, key ∈ keys ↔ key ∈ expected := by
  simp only [Bool.and_eq_true, List.all_eq_true, List.contains_iff_mem]
  exact ⟨fun h key => ⟨h.1 key, h.2 key⟩, fun h => ⟨fun key => (h key).1, fun key => (h key).2⟩⟩

theorem requestSettings_eq_ok {service : Service} {operation : String}
    {message : Dict String Json} {settings : Dict String String} :
    requestSettings service operation message = .ok settings ↔
      if operation = "start" then
        ∃ raw d, message.get "settings" = some raw ∧ raw.dict? = some d ∧
          d.entries = settingsMembers settings.entries ∧ ∀ e ∈ settings.entries, service.Allows e
      else settings = ∅ := by
  unfold requestSettings
  split_ifs with hstart
  · rw [parseSettings_eq_ok]
    constructor
    · rintro ⟨⟨d, hraw, hentries⟩, hall⟩
      refine ⟨_, d, ?_, hraw, hentries, hall⟩
      rw [← field_eq_some]
      intro hnull
      rw [hnull] at hraw
      cases hraw
    · rintro ⟨raw, d, hget, hraw, hentries, hall⟩
      refine ⟨⟨d, ?_, hentries⟩, hall⟩
      rw [Json.field, hget]
      exact hraw
  · constructor
    · exact fun h => (Except.ok.inj h).symm
    · exact fun h => congrArg Except.ok h.symm

/-- The document after decoding is accepted exactly if it is a valid object. -/
theorem parseMessage_eq_ok {config : Config} {decoded : Json} {request : Request} :
    parseMessage config decoded = .ok request ↔
      ∃ message, decoded.dict? = some message ∧ Valid config message request := by
  unfold parseMessage
  cases hd : decoded.dict? with
  | none =>
    constructor
    · intro h
      simp only [Option.getD_none] at h
      split_ifs at h with hkeys
      · exact absurd rfl hkeys
    · rintro ⟨_, h, -⟩
      cases h
  | some message =>
    simp only [Option.getD_some, Option.some.injEq, exists_eq_left']
    constructor
    · intro h
      split_ifs at h with hkeys hversion
      split at h
      · cases h
      next id hid =>
      split at h
      · cases h
      next operation hoperation =>
      split at h
      · cases h
      next service hservice =>
      obtain ⟨settings, hsettings, h⟩ := except_bind_ok.1 h
      cases h
      obtain ⟨hid, hnonempty⟩ := Option.filter_eq_some_iff.1 hid
      obtain ⟨hoperation, hknown⟩ := Option.filter_eq_some_iff.1 hoperation
      obtain ⟨name, hname, hservice⟩ := Option.bind_eq_some_iff.1 hservice
      rw [str?_eq_some.1 hoperation, Bool.not_eq_true', Bool.not_eq_false, sameKeys_iff] at hkeys
      have hversion : (Json.field message "version").int? = some 1 := not_not.1 hversion
      rw [int?_eq_some, field_eq_some (by simp)] at hversion
      refine ⟨fun key => (hkeys key).trans (expectedKeys_str operation key), hversion,
        field_str.1 hid, by simpa using hnonempty, field_str.1 hoperation, by simpa using hknown,
        ⟨name, field_str.1 hname, hservice⟩, requestSettings_eq_ok.1 hsettings⟩
    · intro h
      obtain ⟨name, hname, hservice⟩ := h.service
      have hoperation : Json.field message "request" = .str request.operation :=
        (field_eq_some (by simp)).2 h.operation
      have hversion : (Json.field message "version").int? = some protocolVersion :=
        int?_eq_some.2 ((field_eq_some (by simp)).2 h.version)
      have hid : (Json.field message "id").str?.filter (· ≠ "") = some request.id :=
        Option.filter_eq_some_iff.2 ⟨field_str.2 h.id, by simpa using h.nonempty⟩
      have hknown : (Json.str request.operation).str?.filter operations.contains =
          some request.operation :=
        Option.filter_eq_some_iff.2 ⟨rfl, by simpa using h.known⟩
      have hconfigured : (Json.field message "service").str?.bind config.services.get =
          some request.service := by
        rw [field_str.2 hname]
        exact hservice
      have hsettings := requestSettings_eq_ok.2 h.settings
      rw [hoperation, if_neg, if_neg (not_not.2 hversion), hid]
      · dsimp only
        rw [hknown]
        dsimp only
        rw [hconfigured]
        dsimp only
        rw [hsettings]
        rfl
      · rw [Bool.not_eq_true', Bool.not_eq_false, sameKeys_iff]
        exact fun key => (h.keys key).trans (expectedKeys_str request.operation key).symm

/-- A line decodes to a document: it is UTF-8, and the text is JSON. -/
def Decodes (parse : String → Except LoadsError Json) (raw : List UInt8) (decoded : Json) : Prop :=
  ∃ text, String.fromUTF8? ⟨raw.toArray⟩ = some text ∧ parse text = .ok decoded

/-- The bytes of a text. -/
def utf8 (text : String) : List UInt8 := text.toByteArray.data.toList

theorem utf8_append (text text' : String) : utf8 (text ++ text') = utf8 text ++ utf8 text' := by
  simp [utf8]

theorem fromUTF8?_utf8 (text : String) : String.fromUTF8? ⟨(utf8 text).toArray⟩ = some text := by
  have h : (⟨(utf8 text).toArray⟩ : ByteArray) = text.toByteArray := by
    unfold utf8
    rw [Array.toArray_toList]
  rw [h, String.fromUTF8?, dif_pos text.isValidUTF8]
  rfl

theorem decodes_utf8 {parse : String → Except LoadsError Json} {text : String} {decoded : Json}
    (h : parse text = .ok decoded) : Decodes parse (utf8 text) decoded :=
  ⟨text, fromUTF8?_utf8 text, h⟩

theorem decodeRequest_eq_ok {parse : String → Except LoadsError Json} {raw : List UInt8}
    {decoded : Json} : decodeRequest parse raw = .ok decoded ↔ Decodes parse raw decoded := by
  unfold decodeRequest Decodes
  cases String.fromUTF8? ⟨raw.toArray⟩ with
  | none => simp
  | some text =>
    simp only [Option.some.injEq, exists_eq_left']
    cases hp : parse text with
    | ok document => simp
    | error e => cases e <;> simp

/-- `parse_request` accepts exactly the lines that decode to a valid object. -/
theorem parseRequest_eq_ok {parse : String → Except LoadsError Json} {raw : List UInt8}
    {config : Config} {request : Request} :
    parseRequest parse raw config = .ok request ↔
      ∃ decoded message, Decodes parse raw decoded ∧ decoded.dict? = some message ∧
        Valid config message request := by
  unfold parseRequest
  rw [except_bind_ok]
  simp only [decodeRequest_eq_ok, parseMessage_eq_ok]
  constructor
  · rintro ⟨decoded, hdecodes, message, hd, hvalid⟩
    exact ⟨decoded, message, hdecodes, hd, hvalid⟩
  · rintro ⟨decoded, message, hdecodes, hd, hvalid⟩
    exact ⟨decoded, hdecodes, message, hd, hvalid⟩

/-- Only a start has settings, and it has only allowed ones. -/
theorem Valid.allows {config : Config} {message : Dict String Json} {request : Request}
    (h : Valid config message request) :
    ∀ e ∈ request.settings.entries, request.service.Allows e := by
  have hs := h.settings
  split_ifs at hs with hstart
  · obtain ⟨-, -, -, -, -, hall⟩ := hs
    exact hall
  · rw [hs]
    exact fun e he => absurd he List.not_mem_nil

end ModelBroker.Helper
