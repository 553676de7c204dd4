import ModelBroker.Catalogue.Services

/-!
# The devices that a suffix and a setting name

A device is a number here, and its spelling the decimal one without leading
zeros: the patterns of `catalogue.py` (lines 14–16) admit no other, so that a
device has one spelling in an ID, one in a setting and one as a resource.

* `suffixDevices_eq_ok`: `suffix_devices` returns exactly the devices of the
  suffix, which are different.
* `Suffix.unique`: an ID has one suffix.
* `settingDevices_eq_ok`: `setting_devices` returns exactly the devices listed,
  which are different.
* `confirmedDevices_ok`: the setting of a section lists the devices of its suffix.
-/

namespace ModelBroker.Preset

open Python

/-! ## Numbers -/

/-- The decimal digits of a number. -/
def number (n : ℕ) : List Char := Nat.toDigits 10 n

theorem number_injective : Function.Injective number := by
  intro a b h
  have hvalue : Nat.ofDigitChars 10 (number a) 0 = Nat.ofDigitChars 10 (number b) 0 := by rw [h]
  simpa [number] using hvalue

theorem isNumber_iff {c : Char} : isNumber c = true ↔ 48 ≤ c.toNat ∧ c.toNat ≤ 57 := by
  simp only [isNumber, Bool.and_eq_true, decide_eq_true_eq, Char.le_def, UInt32.le_iff_toNat_le]
  rfl

theorem isNumber_of_mem_number {n : ℕ} {c : Char} (h : c ∈ number n) : isNumber c = true := by
  have hdigit : c.isDigit = true := Nat.isDigit_of_mem_toDigits (by decide) (by decide) h
  simp only [Char.isDigit, Bool.and_eq_true, decide_eq_true_eq, ge_iff_le,
    UInt32.le_iff_toNat_le] at hdigit
  exact isNumber_iff.2 hdigit

/-- A digit is the digit of its value. -/
theorem digitChar_value {c : Char} (h : isNumber c = true) :
    c.toNat - 48 < 10 ∧ Nat.digitChar (c.toNat - 48) = c := by
  have hrange := isNumber_iff.1 h
  have hlt : c.toNat - 48 < 10 := by omega
  refine ⟨hlt, Char.toNat_inj.1 ?_⟩
  rw [Nat.toNat_digitChar_of_lt_ten hlt]
  omega

/-- Only zero has a first digit that is zero. -/
theorem eq_zero_of_number {n : ℕ} {rest : List Char} (h : number n = '0' :: rest) : n = 0 := by
  induction n using Nat.strong_induction_on generalizing rest with
  | _ n ih =>
    rw [number, Nat.toDigits_eq_if (by decide)] at h
    split_ifs at h with hlt
    · obtain ⟨hdigit, -⟩ := List.cons.inj h
      have hvalue := Nat.toNat_digitChar_sub_48_of_lt_ten hlt
      rw [hdigit] at hvalue
      exact hvalue.symm
    · -- the first digit of a longer number is that of its tenth
      cases hten : number (n / 10) with
      | nil => exact absurd hten Nat.toDigits_ne_nil
      | cons c digits =>
        rw [← number, hten, List.cons_append] at h
        obtain ⟨rfl, -⟩ := List.cons.inj h
        have hzero := ih (n / 10) (by omega) hten
        omega

/-- Digits after a positive number make a longer number. -/
theorem exists_number_append {n : ℕ} (hn : 0 < n) {digits : List Char}
    (h : digits.all isNumber = true) : ∃ m, 0 < m ∧ number n ++ digits = number m := by
  induction digits generalizing n with
  | nil => exact ⟨n, hn, List.append_nil _⟩
  | cons c digits ih =>
    rw [List.all_cons, Bool.and_eq_true] at h
    obtain ⟨hlt, hchar⟩ := digitChar_value h.1
    have hnext : number n ++ [c] = number (10 * n + (c.toNat - 48)) := by
      rw [number, number, ← Nat.toDigits_append_toDigits (by decide) hn hlt,
        Nat.toDigits_of_lt_base hlt, hchar]
    obtain ⟨m, hm, heq⟩ := ih (n := 10 * n + (c.toNat - 48)) (by omega) h.2
    exact ⟨m, hm, by rw [← heq, ← hnext, List.append_assoc, List.singleton_append]⟩

/-- `CUDA_NUMBER` matches exactly the decimal numbers without leading zeros. -/
theorem isCudaNumber_iff {text : List Char} :
    isCudaNumber text = true ↔ ∃ n, text = number n := by
  constructor
  · intro h
    unfold isCudaNumber at h
    split at h
    · cases h
    · exact ⟨0, rfl⟩
    · next c rest _ =>
      simp only [Bool.and_eq_true, decide_eq_true_eq] at h
      obtain ⟨⟨hzero, hc⟩, hrest⟩ := h
      obtain ⟨hlt, hchar⟩ := digitChar_value hc
      have hpos : 0 < c.toNat - 48 := by
        by_contra hnot
        have hvalue : c.toNat - 48 = 0 := by omega
        rw [hvalue] at hchar
        exact hzero hchar.symm
      obtain ⟨m, -, heq⟩ := exists_number_append hpos hrest
      refine ⟨m, ?_⟩
      rw [← heq, number, Nat.toDigits_of_lt_base hlt, hchar, List.singleton_append]
  · rintro ⟨n, rfl⟩
    -- the first digit is not zero unless the number is
    have hdigits : ∀ c ∈ number n, isNumber c = true := fun c => isNumber_of_mem_number
    unfold isCudaNumber
    split
    · next heq => exact absurd heq Nat.toDigits_ne_nil
    · rfl
    · next c rest hne heq =>
      rw [heq, List.forall_mem_cons] at hdigits
      have hhead : c ≠ '0' := by
        rintro rfl
        rw [eq_zero_of_number heq] at heq
        obtain ⟨-, hrest⟩ := List.cons.inj (heq : ['0'] = '0' :: rest)
        exact hne rfl hrest.symm
      simp only [hhead, hdigits.1, ne_eq, not_false_eq_true, decide_true, Bool.and_self,
        Bool.true_and, List.all_eq_true]
      exact hdigits.2

/-! ## Suffixes -/

/-- A device as a suffix, a setting and a claim name it. -/
def cudaSpelling (n : ℕ) : List Char := 'c' :: 'u' :: 'd' :: 'a' :: number n

def cudaName (n : ℕ) : String := String.ofList ('C' :: 'U' :: 'D' :: 'A' :: number n)

def gpuName (n : ℕ) : String := "GPU" ++ String.ofList (number n)

/-- What stands after the two dashes of a suffix: the devices with one dash
    between them. -/
def suffixText (devices : List ℕ) : List Char := ['-'].intercalate (devices.map cudaSpelling)

/-- The suffix of an ID: `--cpu` for no devices, or the devices after two dashes. A
    pattern with `$` also admits a line break at the end. -/
def Suffix (variantId : String) (devices : List ℕ) : Prop :=
  (devices = [] ∧ endswith variantId "--cpu" = true) ∨
    (devices ≠ [] ∧ ∃ stem tail, (tail = [] ∨ tail = ['\n']) ∧
      variantId.toList =
        stem ++ '-' :: '-' :: (suffixText devices ++ tail))

theorem cudaName_injective : Function.Injective cudaName := by
  intro a b h
  have hchars := String.ofList_injective h
  simp only [List.cons.injEq, true_and] at hchars
  exact number_injective hchars

theorem gpuName_injective : Function.Injective gpuName := by
  intro a b h
  have hchars : ("GPU" ++ String.ofList (number a)).toList =
      ("GPU" ++ String.ofList (number b)).toList := congrArg String.toList h
  simp only [String.toList_append, String.toList_ofList, List.append_cancel_left_eq] at hchars
  exact number_injective hchars

/-- An item of a suffix is the spelling of a device. -/
theorem cudaItem_eq_some {item : List Char} {name : String} :
    cudaItem item = some name ↔ ∃ n, item = cudaSpelling n ∧ name = cudaName n := by
  constructor
  · intro h
    unfold cudaItem at h
    split at h
    · next digits =>
      split_ifs at h with hdigits
      obtain ⟨n, rfl⟩ := isCudaNumber_iff.1 hdigits
      exact ⟨n, rfl, (Option.some.inj h).symm⟩
    · cases h
  · rintro ⟨n, rfl, rfl⟩
    have hnumber : isCudaNumber (number n) = true := isCudaNumber_iff.2 ⟨n, rfl⟩
    simp [cudaItem, cudaSpelling, cudaName, hnumber]

/-- The items of a suffix are the spellings of its devices. -/
theorem mapM_cudaItem_eq_some {items : List (List Char)} {names : List String} :
    items.mapM cudaItem = some names ↔
      ∃ devices : List ℕ, items = devices.map cudaSpelling ∧ names = devices.map cudaName := by
  simp only [option_mapM_eq_some, cudaItem_eq_some]
  constructor
  · intro h
    induction h with
    | nil => exact ⟨[], rfl, rfl⟩
    | cons hitem _ ih =>
      obtain ⟨n, rfl, rfl⟩ := hitem
      obtain ⟨devices, rfl, rfl⟩ := ih
      exact ⟨n :: devices, rfl, rfl⟩
  · rintro ⟨devices, rfl, rfl⟩
    rw [List.forall₂_map_left_iff, List.forall₂_map_right_iff, List.forall₂_same]
    exact fun n _ => ⟨n, rfl, rfl⟩

theorem dash_not_mem_cudaSpelling (n : ℕ) : '-' ∉ cudaSpelling n := by
  intro h
  simp only [cudaSpelling, List.mem_cons, Char.reduceEq, false_or] at h
  exact absurd (isNumber_of_mem_number h) (by decide)

/-- A suffix ends in a digit. -/
theorem getLast?_suffixText {devices : List ℕ} (h : devices ≠ []) :
    ∃ c, isNumber c = true ∧ (suffixText devices).getLast? = some c := by
  induction devices with
  | nil => exact absurd rfl h
  | cons n devices ih =>
    cases devices with
    | nil =>
      have hne : number n ≠ [] := Nat.toDigits_ne_nil
      refine ⟨(number n).getLast hne, isNumber_of_mem_number (List.getLast_mem hne), ?_⟩
      simp [suffixText, cudaSpelling, List.getLast?_cons, List.getLast?_eq_some_getLast hne]
    | cons m devices =>
      obtain ⟨c, hc, hlast⟩ := ih (List.cons_ne_nil m devices)
      refine ⟨c, hc, ?_⟩
      have htext : suffixText (n :: m :: devices) =
          cudaSpelling n ++ ['-'] ++ suffixText (m :: devices) := by
        simp [suffixText, List.intercalate_cons_cons]
      rw [htext, List.getLast?_append, hlast]
      rfl

/-- What `cudaItems` splits at the dashes: the text without a line break at the end. -/
def trimmed (text : List Char) : List Char :=
  if text.getLast? = some '\n' then text.dropLast else text

theorem exists_tail (text : List Char) :
    ∃ tail, (tail = [] ∨ tail = ['\n']) ∧ text = trimmed text ++ tail := by
  unfold trimmed
  split_ifs with hlast
  · exact ⟨['\n'], .inr rfl, (List.dropLast_append_getLast? _ hlast).symm⟩
  · exact ⟨[], .inl rfl, (List.append_nil text).symm⟩

theorem trimmed_suffixText {devices : List ℕ} (h : devices ≠ []) {tail : List Char}
    (htail : tail = [] ∨ tail = ['\n']) : trimmed (suffixText devices ++ tail) = suffixText devices := by
  unfold trimmed
  rcases htail with rfl | rfl
  · obtain ⟨c, hc, hlast⟩ := getLast?_suffixText h
    have hne : c ≠ '\n' := by
      rintro rfl
      exact absurd hc (by decide)
    rw [List.append_nil, hlast, if_neg fun heq => hne (Option.some.inj heq)]
  · rw [List.getLast?_concat, if_pos rfl, List.dropLast_concat]

/-- What stands after the two dashes of a suffix. -/
theorem cudaItems_eq_some {text : List Char} {names : List String} :
    cudaItems text = some names ↔
      ∃ devices : List ℕ, devices ≠ [] ∧ names = devices.map cudaName ∧
        ∃ tail, (tail = [] ∨ tail = ['\n']) ∧ text = suffixText devices ++ tail := by
  show ((trimmed text).splitOn '-').mapM cudaItem = some names ↔ _
  rw [mapM_cudaItem_eq_some]
  constructor
  · rintro ⟨devices, hitems, rfl⟩
    have htext : suffixText devices = trimmed text := by
      rw [suffixText, ← hitems, List.intercalate_splitOn]
    have hne : devices ≠ [] := by
      rintro rfl
      exact List.splitOn_ne_nil _ _ hitems
    obtain ⟨tail, htail, heq⟩ := exists_tail text
    exact ⟨devices, hne, rfl, tail, htail, by rw [htext, ← heq]⟩
  · rintro ⟨devices, hne, rfl, tail, htail, rfl⟩
    refine ⟨devices, ?_, rfl⟩
    rw [trimmed_suffixText hne htail, suffixText, List.splitOn_intercalate]
    · intro item hitem
      obtain ⟨n, -, rfl⟩ := List.mem_map.1 hitem
      exact dash_not_mem_cudaSpelling n
    · exact fun h => hne (List.map_eq_nil_iff.1 h)

/-- A dash with nothing or another dash before it is in no suffix. -/
theorem cudaItems_dash {before after : List Char}
    (h : before = [] ∨ before.getLast? = some '-') : cudaItems (before ++ '-' :: after) = none := by
  have htrimmed : ∃ after', trimmed (before ++ '-' :: after) = before ++ '-' :: after' := by
    unfold trimmed
    split_ifs with hlast
    · cases after with
      | nil => simp at hlast
      | cons c after => exact ⟨(c :: after).dropLast, by simp⟩
    · exact ⟨after, rfl⟩
  obtain ⟨after', htrimmed⟩ := htrimmed
  -- the text before the dash ends in an empty item
  have hempty : [] ∈ before.splitOn '-' := by
    rcases h with rfl | hlast
    · simp
    · rw [← List.dropLast_append_getLast? _ hlast, List.splitOn_append_cons_self]
      simp
  show ((trimmed (before ++ '-' :: after)).splitOn '-').mapM cudaItem = none
  rw [htrimmed, List.splitOn_append_cons_self, Option.eq_none_iff_forall_ne_some]
  intro names hnames
  obtain ⟨devices, hitems, -⟩ := mapM_cudaItem_eq_some.1 hnames
  have hmem : [] ∈ devices.map cudaSpelling := hitems ▸ List.mem_append_left _ hempty
  obtain ⟨n, -, hn⟩ := List.mem_map.1 hmem
  cases hn

/-- `CUDA_SUFFIX.search` finds the one place where a suffix begins. -/
theorem cudaSuffix_eq_some {text : List Char} {names : List String} :
    cudaSuffix text = some names ↔
      ∃ stem rest, text = stem ++ '-' :: '-' :: rest ∧ cudaItems rest = some names := by
  constructor
  · intro h
    induction text using cudaSuffix.induct with
    | case1 rest ih =>
      rw [cudaSuffix, Option.or_eq_some_iff] at h
      rcases h with h | ⟨-, h⟩
      · exact ⟨[], rest, rfl, h⟩
      · obtain ⟨stem, rest', heq, hitems⟩ := ih h
        exact ⟨'-' :: stem, rest', by rw [heq, List.cons_append], hitems⟩
    | case2 c rest hne ih =>
      rw [cudaSuffix] at h
      · obtain ⟨stem, rest', heq, hitems⟩ := ih h
        exact ⟨c :: stem, rest', by rw [heq, List.cons_append], hitems⟩
      · exact hne
    | case3 => cases h
  · rintro ⟨stem, rest, rfl, hitems⟩
    induction stem with
    | nil => rw [List.nil_append, cudaSuffix, hitems, Option.some_or]
    | cons c stem ih =>
      by_cases hdash : ∃ stem', c = '-' ∧ stem ++ '-' :: '-' :: rest = '-' :: stem'
      · -- what stands after these two dashes has two dashes itself
        obtain ⟨after, rfl, heq⟩ := hdash
        have hnone : cudaItems after = none := by
          cases stem with
          | nil =>
            obtain ⟨-, rfl⟩ := List.cons.inj heq
            have hfirst : cudaItems ([] ++ '-' :: rest) = none := cudaItems_dash (.inl rfl)
            exact hfirst
          | cons d stem =>
            obtain ⟨rfl, hafter⟩ := List.cons.inj heq
            have hsplit : after = (stem ++ ['-']) ++ '-' :: rest := by simp [← hafter]
            rw [hsplit]
            exact cudaItems_dash (.inr (by simp))
        rw [heq] at ih
        rw [List.cons_append, heq, cudaSuffix, hnone, Option.none_or, ih]
      · rw [List.cons_append, cudaSuffix, ih]
        intro stem' hc heq
        exact hdash ⟨stem', hc, heq⟩

/-- An ID with devices after its two dashes does not end in `--cpu`. -/
theorem not_endswith_cpu {variantId : String} {stem tail : List Char} {devices : List ℕ}
    (hne : devices ≠ []) (htail : tail = [] ∨ tail = ['\n'])
    (hid : variantId.toList = stem ++ '-' :: '-' :: (suffixText devices ++ tail)) :
    endswith variantId "--cpu" = false := by
  rw [Bool.eq_false_iff]
  intro hcpu
  obtain ⟨start, hstart⟩ := List.isSuffixOf_iff_suffix.1 hcpu
  have hlast : variantId.toList.getLast? = some 'u' := by
    rw [← hstart, List.getLast?_append]
    rfl
  have hparts : variantId.toList = stem ++ ['-', '-'] ++ suffixText devices ++ tail := by
    simp [hid]
  rcases htail with rfl | rfl
  · obtain ⟨c, hc, hdigit⟩ := getLast?_suffixText hne
    rw [hparts, List.append_nil, List.getLast?_append, hdigit, Option.some_or] at hlast
    rw [Option.some.inj hlast] at hc
    exact absurd hc (by decide)
  · rw [hparts, List.getLast?_concat] at hlast
    exact absurd (Option.some.inj hlast) (by decide)

/-- What the search finds after the dashes of an ID. -/
theorem cudaSuffix_id {variantId : String} {names : List String} :
    cudaSuffix variantId.toList = some names ↔
      ∃ devices : List ℕ, devices ≠ [] ∧ Suffix variantId devices ∧
        names = devices.map cudaName := by
  rw [cudaSuffix_eq_some]
  constructor
  · rintro ⟨stem, rest, hid, hitems⟩
    obtain ⟨devices, hne, rfl, tail, htail, rfl⟩ := cudaItems_eq_some.1 hitems
    exact ⟨devices, hne, .inr ⟨hne, stem, tail, htail, hid⟩, rfl⟩
  · rintro ⟨devices, hne, hsuffix, rfl⟩
    rcases hsuffix with ⟨hnone, -⟩ | ⟨-, stem, tail, htail, hid⟩
    · exact absurd hnone hne
    · exact ⟨stem, _, hid, cudaItems_eq_some.2 ⟨devices, hne, rfl, tail, htail, rfl⟩⟩

/-- An ID that ends in `--cpu` has no devices in its suffix. -/
theorem Suffix.eq_nil_iff {variantId : String} {devices : List ℕ} (h : Suffix variantId devices) :
    devices = [] ↔ endswith variantId "--cpu" = true := by
  rcases h with ⟨hnone, hcpu⟩ | ⟨hne, stem, tail, htail, hid⟩
  · exact iff_of_true hnone hcpu
  · exact iff_of_false hne (by rw [not_endswith_cpu hne htail hid]; decide)

/-- An ID has one suffix. -/
theorem Suffix.unique {variantId : String} {devices devices' : List ℕ}
    (h : Suffix variantId devices) (h' : Suffix variantId devices') : devices = devices' := by
  by_cases hnone : devices = []
  · have hcpu := h.eq_nil_iff.1 hnone
    rw [hnone, h'.eq_nil_iff.2 hcpu]
  · have hnone' : devices' ≠ [] := fun heq => hnone (h.eq_nil_iff.2 (h'.eq_nil_iff.1 heq))
    have hfound := cudaSuffix_id.2 ⟨devices, hnone, h, rfl⟩
    have hfound' := cudaSuffix_id.2 ⟨devices', hnone', h', rfl⟩
    exact (List.map_injective_iff.2 cudaName_injective)
      (Option.some.inj (hfound.symm.trans hfound'))

/-- `suffix_devices` returns the devices of the suffix, which are different. -/
theorem suffixDevices_eq_ok {variantId : String} {names : List String} :
    suffixDevices variantId = .ok names ↔
      ∃ devices : List ℕ, Suffix variantId devices ∧ devices.Nodup ∧
        names = devices.map cudaName := by
  unfold suffixDevices
  constructor
  · intro h
    split_ifs at h with hcpu
    · exact ⟨[], .inl ⟨rfl, hcpu⟩, .nil, (Except.ok.inj h).symm⟩
    · cases hfound : cudaSuffix variantId.toList with
      | none => simp [hfound] at h
      | some found =>
        rw [hfound] at h
        dsimp only at h
        split_ifs at h with hnodup
        obtain rfl := Except.ok.inj h
        obtain ⟨devices, -, hsuffix, rfl⟩ := cudaSuffix_id.1 hfound
        exact ⟨devices, hsuffix, .of_map _ hnodup, rfl⟩
  · rintro ⟨devices, hsuffix, hnodup, rfl⟩
    split_ifs with hcpu
    · rw [hsuffix.eq_nil_iff.2 hcpu]
      rfl
    · have hne : devices ≠ [] := fun hnone => hcpu (hsuffix.eq_nil_iff.1 hnone)
      rw [cudaSuffix_id.2 ⟨devices, hne, hsuffix, rfl⟩]
      dsimp only
      rw [if_pos (hnodup.map cudaName_injective)]

/-! ## Settings -/

/-- A device list setting: `none`, or the names of the devices between commas, with
    white space around them. -/
def Lists (value : String) (devices : List ℕ) : Prop :=
  (value = "none" ∧ devices = []) ∨ (splitOn ',' value).map strip = devices.map cudaName

theorem isCudaDevice_iff {name : String} : isCudaDevice name = true ↔ ∃ n, name = cudaName n := by
  constructor
  · intro h
    unfold isCudaDevice at h
    split at h
    · next digits heq =>
      obtain ⟨n, rfl⟩ := isCudaNumber_iff.1 h
      exact ⟨n, String.toList_inj.1 (by rw [heq, cudaName, String.toList_ofList])⟩
    · cases h
  · rintro ⟨n, rfl⟩
    have hnumber : isCudaNumber (number n) = true := isCudaNumber_iff.2 ⟨n, rfl⟩
    simp [isCudaDevice, cudaName, hnumber]

/-- Names of devices, one after another. -/
theorem forall_isCudaDevice_iff {names : List String} :
    (∀ name ∈ names, isCudaDevice name = true) ↔ ∃ devices : List ℕ, names = devices.map cudaName := by
  constructor
  · intro h
    have hnames : names ∈ Set.range (List.map cudaName) := by
      rw [Set.range_list_map]
      exact fun name hname => (isCudaDevice_iff.1 (h name hname)).imp fun _ hn => hn.symm
    obtain ⟨devices, rfl⟩ := hnames
    exact ⟨devices, rfl⟩
  · rintro ⟨devices, rfl⟩ name hname
    obtain ⟨n, -, rfl⟩ := List.mem_map.1 hname
    exact isCudaDevice_iff.2 ⟨n, rfl⟩

/-- `setting_devices` returns the devices that a setting lists, which are different. -/
theorem settingDevices_eq_ok {variantId key : String} {value : Option String}
    {names : List String} :
    settingDevices variantId key value = .ok names ↔
      ∃ text, value = some text ∧ ∃ devices : List ℕ, Lists text devices ∧ devices.Nodup ∧
        names = devices.map cudaName := by
  cases value with
  | none => simp [settingDevices]
  | some text =>
    unfold settingDevices
    dsimp only
    constructor
    · intro h
      refine ⟨text, rfl, ?_⟩
      split_ifs at h with hnone hinvalid hnodup
      · exact ⟨[], .inl ⟨hnone, rfl⟩, .nil, (Except.ok.inj h).symm⟩
      · obtain rfl := Except.ok.inj h
        have hvalid : ∀ name ∈ (splitOn ',' text).map strip, isCudaDevice name = true := by
          simpa using hinvalid
        obtain ⟨devices, heq⟩ := forall_isCudaDevice_iff.1 hvalid
        exact ⟨devices, .inr heq, .of_map cudaName (heq ▸ hnodup), heq⟩
    · rintro ⟨text', htext, devices, hlists, hnodup, rfl⟩
      obtain rfl := Option.some.inj htext
      rcases hlists with ⟨rfl, rfl⟩ | heq
      · rfl
      · have hvalid : ∀ name ∈ (splitOn ',' text).map strip, isCudaDevice name = true :=
          forall_isCudaDevice_iff.2 ⟨devices, heq⟩
        have hnone : text ≠ "none" := by
          rintro rfl
          exact absurd hvalid (by decide)
        have hinvalid : ((splitOn ',' text).map strip).any (fun name => !isCudaDevice name) = false := by
          simpa using hvalid
        rw [if_neg hnone, hinvalid, if_neg (by decide), heq,
          if_pos (hnodup.map cudaName_injective)]

/-- The devices of a section are those of its suffix and of its setting. -/
theorem confirmedDevices_ok {variantId : String} {settings : Options} {names : List String}
    (h : confirmedDevices variantId settings = .ok names) :
    ∃ devices : List ℕ, names = devices.map cudaName ∧ devices.Nodup ∧ Suffix variantId devices ∧
      ∃ value, settings.get "device" = some value ∧ Lists value devices := by
  obtain ⟨found, hsuffix, h⟩ := except_bind_ok.1 h
  obtain ⟨configured, hsetting, h⟩ := except_bind_ok.1 h
  split_ifs at h with heq
  obtain rfl := Except.ok.inj h
  obtain ⟨devices, hid, hnodup, rfl⟩ := suffixDevices_eq_ok.1 hsuffix
  obtain ⟨value, hvalue, devices', hlists, -, rfl⟩ := settingDevices_eq_ok.1 hsetting
  obtain rfl := (List.map_injective_iff.2 cudaName_injective) heq
  exact ⟨devices', rfl, hnodup, hid, value, hvalue, hlists⟩

end ModelBroker.Preset
