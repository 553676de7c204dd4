import Mathlib.Data.List.Sort
import Mathlib.Data.String.Basic
import ModelBroker.Catalogue.Variant
import ModelBroker.Python.Builtins
import ModelBroker.Python.Text

/-!
# The preset of restart-managed services

`parse_service_catalogue` and what it calls (`catalogue.py`, lines 14–94 and
240–302). What `configparser` returns is given: for each section its options. An
error is the text of the `CatalogueError`.

* `serviceVariant_eq_ok`: what an accepted section becomes.
* `parseServiceCatalogue_entries`: an accepted preset has one variant for each
  section, in the same order.
-/

namespace ModelBroker.Preset

open Python

/-- The options of a section. -/
abbrev Options := Dict String String

/-- `invalid` (lines 64–65). -/
def invalid (variantId problem : String) : String :=
  "preset section " ++ Python.repr variantId ++ " " ++ problem

/-! ## Devices -/

/-- `CUDA_NUMBER` (line 14). -/
def isCudaNumber : List Char → Bool
  | [] => false
  | ['0'] => true
  | c :: rest => c ≠ '0' && isNumber c && rest.all isNumber

/-- `CUDA_DEVICE.fullmatch(name)` (line 15). -/
def isCudaDevice (name : String) : Bool :=
  match name.toList with
  | 'C' :: 'U' :: 'D' :: 'A' :: number => isCudaNumber number
  | _ => false

/-- One device of a suffix, named as a `device` setting names it (line 75). -/
def cudaItem : List Char → Option String
  | 'c' :: 'u' :: 'd' :: 'a' :: number =>
    if isCudaNumber number then some (String.ofList ('C' :: 'U' :: 'D' :: 'A' :: number)) else none
  | _ => none

/-- The devices after the dashes of a suffix. The `$` of the pattern also matches
    before a line break at the end. -/
def cudaItems (text : List Char) : Option (List String) :=
  let text := if text.getLast? = some '\n' then text.dropLast else text
  (text.splitOn '-').mapM cudaItem

/-- `CUDA_SUFFIX.search(variant_id)` (line 16): the first place where a suffix
    begins. -/
def cudaSuffix : List Char → Option (List String)
  | '-' :: '-' :: rest => (cudaItems rest).or (cudaSuffix ('-' :: rest))
  | _ :: rest => cudaSuffix rest
  | [] => none

/-- `suffix_devices` (lines 68–78). -/
def suffixDevices (variantId : String) : Except String (List String) :=
  if endswith variantId "--cpu" then .ok []
  else
    match cudaSuffix variantId.toList with
    | none => .error (invalid variantId "must end in --cpu or one or more --cuda<N> suffixes")
    | some names =>
      if names.Nodup then .ok names
      else .error (invalid variantId "repeats a CUDA device in its suffix")

/-- `setting_devices` (lines 81–94). -/
def settingDevices (variantId key : String) : Option String → Except String (List String)
  | none => .error (invalid variantId ("has no " ++ key ++ " setting"))
  | some value =>
    if value = "none" then .ok []
    else
      let names := (splitOn ',' value).map strip
      if names.any fun name => !isCudaDevice name then
        .error (invalid variantId ("has invalid " ++ key ++ " " ++ Python.repr value ++
          "; use none or comma-separated CUDA<N> names"))
      else if names.Nodup then .ok names
      else .error (invalid variantId ("repeats a CUDA device in " ++ key))

/-- `{devices or ('none',)}` in a message: a tuple of one has a comma after it. -/
def devicesText : List String → String
  | [] => "('none',)"
  | [name] => "(" ++ Python.repr name ++ ",)"
  | names => "(" ++ String.intercalate ", " (names.map Python.repr) ++ ")"

/-- The devices of a section: those of its suffix, which its setting confirms
    (lines 257–263). -/
def confirmedDevices (variantId : String) (settings : Options) : Except String (List String) := do
  let devices ← suffixDevices variantId
  let configured ← settingDevices variantId "device" (settings.get "device")
  if configured = devices then .ok devices
  else
    .error (invalid variantId ("suffix requires " ++ devicesText devices ++ ", but device is " ++
      devicesText configured))

/-! ## Services -/

/-- `SERVICE_KEYS` (line 18). -/
def serviceKeys : List String := ["service", "device", "exclusive"]

/-- `SERVICE_ENV_PREFIX` (line 19). -/
def serviceEnvPrefix : String := "env."

/-- `SERVICE_NAME.fullmatch(service)` (line 20). -/
def isServiceName : String → Bool :=
  matchesName (fun c => isLower c || isNumber c)
    fun c => isLower c || isNumber c || ['_', '.', '-'].contains c

/-- `ENV_NAME.fullmatch(name)` (line 21). -/
def isEnvName : String → Bool :=
  matchesName (fun c => isUpper c || c = '_') fun c => isUpper c || isNumber c || c = '_'

/-- A character of `[A-Za-z0-9:_-]` (line 22). -/
def isResourceCharacter (c : Char) : Bool :=
  isUpper c || isLower c || isNumber c || [':', '_', '-'].contains c

/-- `RESOURCE_NAME.fullmatch(resource)` (line 22). -/
def isResourceName : String → Bool := matchesName isResourceCharacter isResourceCharacter

/-- The first of the texts that `sorted` returns. -/
def firstSorted (texts : List String) : Option String := (texts.insertionSort (· ≤ ·)).head?

/-- The environment of a section (lines 264–268). -/
def sectionEnv (settings : Options) : Dict String String :=
  .ofList ((settings.entries.filter fun e => startswith e.1 serviceEnvPrefix).map fun e =>
    let name := removeprefix e.1 serviceEnvPrefix
    (name, e.2))

/-- The resources that a section names (line 272). -/
def extraResources (settings : Options) : List String :=
  split (String.ofList (((settings.get "exclusive").getD "").toList.map fun c =>
    if c = ',' then ' ' else c))

/-- The resources that a section holds, each once and sorted (lines 275–276). -/
def exclusiveResources (devices extra : List String) : List String :=
  (devices.map (fun device => "GPU" ++ String.ofList (device.toList.drop 4)) ++ extra).dedup
    |>.insertionSort (· ≤ ·)

/-- The claims of a section (lines 276–278). -/
def serviceClaims (exclusive : List String) : List ResourceClaim :=
  let claims := exclusive.map fun resource => ⟨resource, true⟩
  if "CPU" ∈ exclusive then claims else ⟨"CPU", false⟩ :: claims

/-- `service_variant` (lines 240–287). -/
def serviceVariant (variantId : String) (settings : Options) : Except String Variant :=
  match firstSorted (settings.keys.filter fun key =>
    !serviceKeys.contains key && !startswith key serviceEnvPrefix) with
  | some key => .error (invalid variantId ("has unknown setting " ++ Python.repr key))
  | none =>
    let service := (settings.get "service").getD ""
    if !isServiceName service then
      .error (invalid variantId ("has an invalid or missing service " ++ Python.repr service))
    else do
      let devices ← confirmedDevices variantId settings
      let env := sectionEnv settings
      match firstSorted (env.keys.filter fun name => !isEnvName name) with
      | some name =>
        .error (invalid variantId ("has an invalid environment variable name " ++
          Python.repr name))
      | none =>
        let extra := extraResources settings
        if extra.any fun resource => !isResourceName resource then
          .error (invalid variantId ("has an invalid exclusive resource in [" ++
            String.intercalate ", " (extra.map Python.repr) ++ "]"))
        else
          .ok {
            id := variantId
            modelPath := "service:" ++ service
            settings
            claims := serviceClaims (exclusiveResources devices extra)
            resourceClass := "service"
            backend := service
            env }

/-- The variants of a list of sections (lines 296–299). -/
def serviceVariants : List (String × Options) → Except String (List (String × Variant))
  | [] => .ok []
  | (variantId, settings) :: rest => do
    let variant ← serviceVariant variantId settings
    let variants ← serviceVariants rest
    .ok ((variantId, variant) :: variants)

/-- `parse_service_catalogue` (lines 290–302). -/
def parseServiceCatalogue (sections : Dict String Options) : Except String (Dict String Variant) :=
  if sections.contains "*" then
    .error "[*] is not supported in a service preset; each section is complete"
  else do
    let variants ← serviceVariants sections.entries
    if variants = [] then .error "service preset has no model sections"
    else .ok (.ofList variants)

/-- `service_backend` (`application.py`, line 318): the models of one service and
    their environments. -/
def serviceModels (catalogue : Dict String Variant) (name : String) :
    Dict String (Dict String String) :=
  (catalogue.filter fun _ variant => variant.backend = name).mapValues fun _ variant => variant.env

/-! ## What an accepted preset becomes -/

/-- The environment of a section has a variable for each option with the prefix. -/
theorem sectionEnv_get (settings : Options) (name : String) :
    (sectionEnv settings).get name = settings.get (serviceEnvPrefix ++ name) := by
  have hnodup : (((settings.entries.filter fun e => startswith e.1 serviceEnvPrefix).map fun e =>
      let name := removeprefix e.1 serviceEnvPrefix
      (name, e.2)).map Prod.fst).Nodup := by
    rw [List.map_map]
    refine (List.Nodup.filter _ (List.Nodup.of_map _ settings.nodup)).map_on ?_
    intro e he e' he' heq
    obtain ⟨he, hstart⟩ := List.mem_filter.1 he
    obtain ⟨he', hstart'⟩ := List.mem_filter.1 he'
    have heq : removeprefix e.1 serviceEnvPrefix = removeprefix e'.1 serviceEnvPrefix := heq
    have hkey : e.1 = e'.1 := by
      rw [← append_removed hstart, heq, append_removed hstart']
    exact List.inj_on_of_nodup_map settings.nodup he he' hkey
  ext value
  rw [Dict.get_eq_some, Dict.get_eq_some, sectionEnv, Dict.entries_ofList hnodup, List.mem_map]
  constructor
  · rintro ⟨e, he, heq⟩
    obtain ⟨he, hstart⟩ := List.mem_filter.1 he
    obtain ⟨rfl, rfl⟩ := Prod.mk.inj heq
    rw [append_removed hstart]
    exact he
  · intro h
    have hstart : startswith (serviceEnvPrefix ++ name) serviceEnvPrefix = true := by
      simp [startswith]
    exact ⟨_, List.mem_filter.2 ⟨h, hstart⟩, by rw [removeprefix_append]⟩

/-- What an accepted section becomes: a variant of the service it names, with the
    environment it gives and exclusive claims on its devices and the resources it
    names. Its ID has a suffix. -/
theorem serviceVariant_eq_ok {variantId : String} {settings : Options} {variant : Variant}
    (h : serviceVariant variantId settings = .ok variant) :
    variant.id = variantId ∧ settings.get "service" = some variant.backend ∧
      variant.env = sectionEnv settings ∧
      ∃ devices, confirmedDevices variantId settings = .ok devices ∧
        variant.claims = serviceClaims (exclusiveResources devices (extraResources settings)) := by
  unfold serviceVariant at h
  split at h
  · cases h
  dsimp only at h
  split_ifs at h with hname hextra
  · obtain ⟨devices, -, h⟩ := except_bind_ok.1 h
    split at h <;> cases h
  obtain ⟨devices, hdevices, h⟩ := except_bind_ok.1 h
  split at h
  · cases h
  obtain rfl := Except.ok.inj h
  refine ⟨rfl, ?_, rfl, devices, hdevices, rfl⟩
  cases hservice : settings.get "service" with
  | some service => rfl
  | none =>
    rw [hservice] at hname
    exact absurd rfl hname

/-- The variants of an accepted list of sections, one for each. -/
theorem serviceVariants_eq_ok {sections : List (String × Options)}
    {variants : List (String × Variant)} (h : serviceVariants sections = .ok variants) :
    List.Forall₂ (fun s v => s.1 = v.1 ∧ serviceVariant s.1 s.2 = .ok v.2) sections variants := by
  induction sections generalizing variants with
  | nil =>
    obtain rfl := Except.ok.inj h
    exact .nil
  | cons s rest ih =>
    obtain ⟨variant, hvariant, h⟩ := except_bind_ok.1 h
    obtain ⟨variants', hrest, h⟩ := except_bind_ok.1 h
    obtain rfl := Except.ok.inj h
    exact .cons ⟨rfl, hvariant⟩ (ih hrest)

/-- The entries of an accepted preset, one for each section. -/
theorem parseServiceCatalogue_entries {sections : Dict String Options}
    {catalogue : Dict String Variant} (h : parseServiceCatalogue sections = .ok catalogue) :
    List.Forall₂ (fun s v => s.1 = v.1 ∧ serviceVariant s.1 s.2 = .ok v.2) sections.entries
      catalogue.entries := by
  unfold parseServiceCatalogue at h
  split_ifs at h
  obtain ⟨variants, hvariants, h⟩ := except_bind_ok.1 h
  split_ifs at h
  obtain rfl := Except.ok.inj h
  have hall := serviceVariants_eq_ok hvariants
  have hnames : variants.map Prod.fst = sections.entries.map Prod.fst := by
    rw [← List.forall₂_eq_eq_eq, List.forall₂_map_left_iff, List.forall₂_map_right_iff]
    exact hall.flip.imp fun _ _ hv => hv.1.symm
  rw [Dict.entries_ofList (hnames ▸ sections.nodup)]
  exact hall

/-- No accepted section has the empty name. -/
theorem serviceVariant_ne_empty {settings : Options} {variant : Variant} :
    serviceVariant "" settings ≠ .ok variant := by
  intro h
  obtain ⟨-, -, -, devices, hdevices, -⟩ := serviceVariant_eq_ok h
  obtain ⟨devices, hsuffix, -⟩ := except_bind_ok.1 hdevices
  have herror : ∀ devices, suffixDevices "" ≠ .ok devices := nofun
  exact herror devices hsuffix

/-- Every section of an accepted preset is accepted. -/
theorem serviceVariant_of_accepted {sections : Dict String Options}
    {catalogue : Dict String Variant} (h : parseServiceCatalogue sections = .ok catalogue)
    {variantId : String} {variant : Variant} (hv : catalogue.get variantId = some variant) :
    ∃ settings, sections.get variantId = some settings ∧
      serviceVariant variantId settings = .ok variant := by
  obtain ⟨⟨name, settings⟩, hsection, hname, hok⟩ :=
    forall₂_mem_right (parseServiceCatalogue_entries h) (Dict.get_eq_some.1 hv)
  obtain rfl : name = variantId := hname
  exact ⟨settings, Dict.get_eq_some.2 hsection, hok⟩

/-- The sections of one service. -/
def serviceSections (sections : Dict String Options) (name : String) : List (String × Options) :=
  sections.entries.filter fun s => s.2.get "service" = some name

/-- The models of a service are its sections, with their environments. -/
theorem serviceModels_entries {sections : Dict String Options} {catalogue : Dict String Variant}
    (h : parseServiceCatalogue sections = .ok catalogue) (name : String) :
    (serviceModels catalogue name).entries =
      (serviceSections sections name).map fun s => (s.1, sectionEnv s.2) := by
  have hall := parseServiceCatalogue_entries h
  show (catalogue.entries.filter fun e => e.2.backend = name).map (fun e => (e.1, e.2.env)) =
    (sections.entries.filter fun s => s.2.get "service" = some name).map fun s =>
      (s.1, sectionEnv s.2)
  generalize sections.entries = entries at hall
  generalize catalogue.entries = models at hall
  induction hall with
  | nil => rfl
  | @cons s v sections variants hv _ ih =>
    obtain ⟨-, hservice, henv, -⟩ := serviceVariant_eq_ok hv.2
    rw [List.filter_cons, List.filter_cons, hservice]
    by_cases hname : v.2.backend = name
    · simp [hname, ih, hv.1, henv]
    · simp [hname, ih]

end ModelBroker.Preset
