import Mathlib.Data.List.Forall2
import Accessibility.Proofs.Settings.Checked
import Accessibility.Proofs.Settings.Reading
import Accessibility.Proofs.Toml.Document
import Accessibility.Proofs.Toml.Paths

/-! Which settings properties are accepted as. Each step of the reading is exact: it accepts what its
own key leads to, or its default where the key leads nowhere, and nothing else. Together they tell
for every configuration text which settings come out of it, if any do (`ofProperties_account`): a
value of another kind, or a whole number that is negative or too large, is never accepted, and no
default stands in for it. Only the decay may be negative (`decay_below_zero`). -/
namespace Accessibility.Settings

open Properties

variable {properties : Properties} {key : String} {processors : Nat} {settings : Settings}

/-! ## Steps of the reading -/

theorem natural_eq_ok_iff {number default : Nat} :
    natural properties key default = .ok number ↔
      properties.Given key (· = .integer number) (number = default) := by
  have same : properties.Given key (· = .integer number) (number = default) ↔
      properties.Given key (· = .integer number) ((number : Int) = default) :=
    given_congr Int.natCast_inj.symm
  simp only [natural, integer, bind_eq_ok_iff, guarded_eq_ok_iff, pure_eq_ok_iff,
    orDefault_read_eq_ok_iff, integer?_eq_some_iff, same]
  constructor
  · rintro ⟨whole, given, nonneg, rfl⟩
    rwa [Int.toNat_of_nonneg (Int.not_lt.mp nonneg)]
  · exact fun given => ⟨number, given, Int.not_lt.mpr (Int.natCast_nonneg number), rfl⟩

theorem word_eq_ok_iff {number default : UInt32} {standing : Nat}
    (written : default.toNat = standing) :
    word properties key standing = .ok number ↔
      properties.Given key (· = .integer number.toNat) (number = default) := by
  subst written
  have same : properties.Given key (· = .integer number.toNat) (number = default) ↔
      properties.Given key (· = .integer number.toNat) (number.toNat = default.toNat) :=
    given_congr UInt32.toNat_inj.symm
  simp only [word, bind_eq_ok_iff, guarded_eq_ok_iff, pure_eq_ok_iff, natural_eq_ok_iff, same]
  constructor
  · rintro ⟨whole, given, small, rfl⟩
    rwa [Nat.toUInt32, UInt32.toNat_ofNat', Nat.mod_eq_of_lt (Nat.not_le.mp small)]
  · exact fun given => ⟨number.toNat, given, Nat.not_le.mpr number.toNat_lt, UInt32.ofNat_toNat⟩

/-- Whole numbers of a configuration text fit the words that hold sizes. -/
theorem lt_size_of_given (sound : properties.table.WellFormed) {number default : Nat}
    (small : default < UInt64.size)
    (given : properties.Given key (· = .integer number) (number = default)) : number < UInt64.size := by
  cases found : properties.get? key with
  | none => exact given.missing found ▸ small
  | some value =>
    obtain rfl := given.present value found
    cases Toml.Table.wellFormed_of_follow sound found with
    | integer low high =>
      have : (number : Int) ≤ 0x7FFFFFFFFFFFFFFF := high
      rw [show UInt64.size = 0x10000000000000000 from rfl]
      omega

theorem packetSizeOf_eq_ok_iff (sound : properties.table.WellFormed) {size : UInt64} :
    packetSizeOf properties = .ok size ↔
      size ≠ 0 ∧ properties.Given "acc.packet_size" (· = .integer size.toNat)
        (size = Packet.defaultSize) := by
  have same : properties.Given "acc.packet_size" (· = .integer size.toNat)
        (size = Packet.defaultSize) ↔
      properties.Given "acc.packet_size" (· = .integer size.toNat)
        (size.toNat = Packet.defaultSize.toNat) :=
    given_congr UInt64.toNat_inj.symm
  simp only [packetSizeOf, bind_eq_ok_iff, guarded_eq_ok_iff, pure_eq_ok_iff, natural_eq_ok_iff, same]
  constructor
  · rintro ⟨number, given, some_zones, rfl⟩
    have whole : number.toUInt64.toNat = number :=
      UInt64.toNat_ofNat_of_lt' (lt_size_of_given sound Packet.defaultSize.toNat_lt given)
    refine ⟨fun none => some_zones ?_, by rwa [whole]⟩
    rw [← whole, none]
    rfl
  · rintro ⟨some_zones, given⟩
    exact ⟨size.toNat, given, fun none => some_zones (UInt64.toNat_inj.mp none), UInt64.ofNat_toNat⟩

/-- Where packets are evaluated, with the number of workers of the placement that was chosen. -/
def Placed (properties : Properties) (processors : Nat) : Placement → Prop
  | .inProcess threads =>
    properties.Given "acc.distributed" (· = .boolean false) True ∧
      properties.Given "acc.threads" (· = .integer threads) (threads = processors)
  | .distributed nodes =>
    properties.Given "acc.distributed" (· = .boolean true) False ∧
      properties.Given "acc.nodes" (· = .integer nodes) (nodes = 2)

theorem placementOf_eq_ok_iff {placement : Placement} :
    placementOf properties processors = .ok placement ↔ Placed properties processors placement := by
  simp only [placementOf, bind_eq_ok_iff, boolean, orDefault_read_eq_ok_iff, boolean?_eq_some_iff]
  constructor
  · rintro ⟨truth, chosen, accepted⟩
    cases truth with
    | true =>
      obtain ⟨nodes, given, ⟨⟩⟩ := bind_eq_ok_iff.mp accepted
      exact ⟨(given_congr (by simp)).mp chosen, natural_eq_ok_iff.mp given⟩
    | false =>
      obtain ⟨threads, given, ⟨⟩⟩ := bind_eq_ok_iff.mp accepted
      exact ⟨(given_congr (by simp)).mp chosen, natural_eq_ok_iff.mp given⟩
  · intro placed
    cases placement with
    | inProcess threads =>
      refine ⟨false, (given_congr (by simp)).mpr placed.1, ?_⟩
      exact bind_eq_ok_iff.mpr ⟨threads, natural_eq_ok_iff.mpr placed.2, rfl⟩
    | distributed nodes =>
      refine ⟨true, (given_congr (by simp)).mpr placed.1, ?_⟩
      exact bind_eq_ok_iff.mpr ⟨nodes, natural_eq_ok_iff.mpr placed.2, rfl⟩

theorem cacheOf_eq_ok_iff {cache : CacheDimensions} :
    cacheOf properties = .ok cache ↔
      properties.Given "cache.max_tap" (· = .integer cache.maxTap.toNat) (cache.maxTap = 0) ∧
      properties.Given "cache.segments" (· = .integer cache.segments.toNat) (cache.segments = 1) ∧
      properties.Given "cache.periods" (· = .integer cache.periods.toNat) (cache.periods = 1) := by
  have none : (0 : UInt32).toNat = 0 := rfl
  have single : (1 : UInt32).toNat = 1 := rfl
  simp only [cacheOf, bind_eq_ok_iff, word_eq_ok_iff none, word_eq_ok_iff single]
  constructor
  · rintro ⟨maxTap, first, segments, second, periods, third, ⟨⟩⟩
    exact ⟨first, second, third⟩
  · rintro ⟨first, second, third⟩
    exact ⟨_, first, _, second, _, third, rfl⟩

theorem namesOf_eq_ok_iff {expected : Nat} {names? : Option (List String)} :
    namesOf properties key expected = .ok names? ↔
      (∀ names, names? = some names → names.length = expected) ∧
        properties.Given key (fun value => ∃ names, names? = some names ∧
          value = .array (names.map .string)) (names? = none) := by
  have given : ∀ names? : Option (List String),
      properties.ifPresent properties.strings key = .ok names? ↔
        properties.Given key (fun value => ∃ names, names? = some names ∧
          value = .array (names.map .string)) (names? = none) := fun _ =>
    ifPresent_eq_ok_iff (fun (names : List String) value => value = .array (names.map .string))
      fun names => by simp [strings_eq_ok_iff]
  simp only [namesOf, bind_eq_ok_iff, ← given]
  constructor
  · rintro ⟨listed, read, accepted⟩
    cases listed with
    | none =>
      cases accepted
      exact ⟨nofun, read⟩
    | some names =>
      obtain ⟨right, ⟨⟩⟩ := guarded_eq_ok_iff.mp accepted
      refine ⟨?_, read⟩
      rintro _ ⟨⟩
      exact Decidable.not_not.mp right
  · rintro ⟨right, read⟩
    refine ⟨names?, read, ?_⟩
    cases names? with
    | none => rfl
    | some names => exact guarded_eq_ok_iff.mpr ⟨not_not_intro (right names rfl), rfl⟩

theorem marketOf_eq_ok_iff {market : Nat} :
    marketOf properties = .ok market ↔
      market ≤ totalMarket ∧ properties.Given "gravity.market_segment" (· = .integer market)
        (market = totalMarket) := by
  simp only [marketOf, bind_eq_ok_iff, guarded_eq_ok_iff, pure_eq_ok_iff, natural_eq_ok_iff,
    Nat.not_lt]
  constructor
  · rintro ⟨number, given, low, rfl⟩
    exact ⟨low, given⟩
  · exact fun ⟨low, given⟩ => ⟨market, given, low, rfl⟩

theorem mapM_eq_ok_iff_forall₂ {α β : Type} {f : α → Outcome β} {xs : List α} {ys : List β} :
    xs.mapM f = .ok ys ↔ List.Forall₂ (fun x y => f x = .ok y) xs ys := by
  induction xs generalizing ys with
  | nil => cases ys <;> simp [pure, Except.pure]
  | cons x xs ih =>
    simp only [List.mapM_cons, bind_eq_ok_iff, ih]
    constructor
    · rintro ⟨y, first, ys, rest, ⟨⟩⟩
      exact .cons first rest
    · rintro (_ | ⟨first, rest⟩)
      exact ⟨_, first, _, rest, rfl⟩

/-- The rows of constants, one for each market. -/
def Tabled (properties : Properties) (constants : List (List Double)) : Prop :=
  constants.length = 4 ∧ ∀ (market : Nat) (row : List Double), constants[market]? = some row →
    ∃ items : List Toml.Value, properties.get? s!"constants.market_{market}" = some (.array items) ∧
      items.map Toml.Value.number? = row.map some

theorem constants_eq_ok_iff {constants : List (List Double)} :
    ((List.range (totalMarket + 1)).mapM fun market =>
        properties.numbers s!"constants.market_{market}") = .ok constants ↔
      Tabled properties constants := by
  have numbers : ∀ key (row : List Double), properties.numbers key = .ok row ↔
      ∃ items : List Toml.Value, properties.get? key = some (.array items) ∧
        items.map Toml.Value.number? = row.map some := fun _ _ => readArray_eq_ok_iff
  rw [mapM_eq_ok_iff_forall₂, List.forall₂_iff_get]
  simp only [numbers, List.length_range, List.get_eq_getElem, List.getElem_range]
  constructor
  · rintro ⟨count, rows⟩
    refine ⟨count.symm, fun market row held => ?_⟩
    obtain ⟨within, rfl⟩ := List.getElem?_eq_some_iff.mp held
    exact rows market (by omega) within
  · rintro ⟨count, rows⟩
    exact ⟨count.symm, fun market _ within => rows market _ (List.getElem?_eq_getElem within)⟩

/-! ## The whole -/

/-- What all settings that are accepted are known to satisfy. -/
structure WellFormed (settings : Settings) : Prop extends Checked settings where
  market : settings.marketSegment ≤ 3
  rows : settings.constants.length = 4

/-- Each value of the settings is that of its own property, or its default where the property is
missing. -/
structure Account (properties : Properties) (processors : Nat) (settings : Settings) : Prop where
  packetSize : properties.Given "acc.packet_size" (· = .integer settings.packetSize.toNat)
    (settings.packetSize = Packet.defaultSize)
  placement : Placed properties processors settings.placement
  maxTap : properties.Given "cache.max_tap" (· = .integer settings.cache.maxTap.toNat)
    (settings.cache.maxTap = 0)
  segments : properties.Given "cache.segments" (· = .integer settings.cache.segments.toNat)
    (settings.cache.segments = 1)
  periods : properties.Given "cache.periods" (· = .integer settings.cache.periods.toNat)
    (settings.cache.periods = 1)
  modes : properties.get? "constants.modes" = some (.array (settings.modes.map .string))
  constants : Tabled properties settings.constants
  school : properties.Given "school.size_attributes"
    (fun value => ∃ names, settings.schoolSizeAttributes = some names ∧
      value = .array (names.map .string)) (settings.schoolSizeAttributes = none)
  work : properties.Given "work.size_attributes"
    (fun value => ∃ names, settings.workSizeAttributes = some names ∧
      value = .array (names.map .string)) (settings.workSizeAttributes = none)
  enrollment : properties.Given "school.enrollment_attribute"
    (fun value => ∃ name, settings.enrollmentAttribute = some name ∧ value = .string name)
    (settings.enrollmentAttribute = none)
  marketSegment : properties.Given "gravity.market_segment" (· = .integer settings.marketSegment)
    (settings.marketSegment = totalMarket)
  zoneFile : ∃ text, properties.get? "acc.zone_file" = some (.string text) ∧
    settings.zoneFile = properties.located text
  outputFile : ∃ text, properties.get? "acc.output_file" = some (.string text) ∧
    settings.outputFile = properties.located text
  indexLabel : properties.Given "acc.index_label" (· = .string settings.indexLabel)
    (settings.indexLabel = AccessibilityTable.defaultIndexLabel)
  sizeAttributes : properties.get? "size.attributes" =
    some (.array (settings.sizeAttributes.map .string))
  decay : properties.Given "gravity.decay" (·.number? = some settings.decay) (settings.decay = .one)

theorem ofProperties_eq_ok_iff (sound : properties.table.WellFormed) :
    ofProperties properties processors = .ok settings ↔
      WellFormed settings ∧ Account properties processors settings := by
  have enrollment : ∀ name?, properties.ifPresent properties.string "school.enrollment_attribute" =
      .ok name? ↔ properties.Given "school.enrollment_attribute"
        (fun value => ∃ name, name? = some name ∧ value = .string name) (name? = none) := fun _ =>
    ifPresent_eq_ok_iff (fun name value => value = .string name) fun name => by
      simp [string_eq_ok_iff]
  have indexLabel : ∀ label, properties.orDefault properties.string "acc.index_label"
      AccessibilityTable.defaultIndexLabel = .ok label ↔ properties.Given "acc.index_label"
        (· = .string label) (label = AccessibilityTable.defaultIndexLabel) := fun label => by
    simp only [string, orDefault_read_eq_ok_iff, string?_eq_some_iff]
  have decay : ∀ number, properties.orDefault properties.number "gravity.decay" .one = .ok number ↔
      properties.Given "gravity.decay" (·.number? = some number) (number = .one) := fun _ =>
    orDefault_read_eq_ok_iff
  unfold ofProperties
  simp only [bind_eq_ok_iff, packetSizeOf_eq_ok_iff sound, placementOf_eq_ok_iff, cacheOf_eq_ok_iff,
    strings_eq_ok_iff, constants_eq_ok_iff, namesOf_eq_ok_iff, marketOf_eq_ok_iff, path_eq_ok_iff,
    enrollment, indexLabel, decay]
  constructor
  · rintro ⟨packetSize, ⟨some_packets, sized⟩, placement, placed, cache,
      ⟨maxTap, segments, periods⟩, modes, moded, constants, tabled, school, ⟨five, schooled⟩,
      work, ⟨six, worked⟩, enrolled, attributed, market, ⟨low, marketed⟩, zoneFile, zoned,
      outputFile, put, label, labelled, size, sizes, number, decayed, ⟨⟩⟩
    exact ⟨⟨⟨some_packets, five, six⟩, low, tabled.1⟩, ⟨sized, placed, maxTap, segments, periods,
      moded, tabled, schooled, worked, attributed, marketed, zoned, put, labelled, sizes, decayed⟩⟩
  · rintro ⟨sound, account⟩
    exact ⟨_, ⟨sound.some_packets, account.packetSize⟩, _, account.placement, _,
      ⟨account.maxTap, account.segments, account.periods⟩, _, account.modes, _, account.constants, _,
      ⟨sound.school, account.school⟩, _, ⟨sound.work, account.work⟩, _, account.enrollment, _,
      ⟨sound.market, account.marketSegment⟩, _, account.zoneFile, _, account.outputFile, _,
      account.indexLabel, _, account.sizeAttributes, _, account.decay, rfl⟩

/-! ## Refusals -/

theorem blames_natural {default : Nat} : Blames (natural properties key default) :=
  (blames_orDefault blames_read).bind fun _ => .guarded rfl (.ok _)

theorem blames_word {default : Nat} : Blames (word properties key default) :=
  blames_natural.bind fun _ => .guarded rfl (.ok _)

theorem blames_packetSizeOf : Blames (packetSizeOf properties) :=
  blames_natural.bind fun _ => .guarded rfl (.ok _)

theorem blames_marketOf : Blames (marketOf properties) :=
  blames_natural.bind fun _ => .guarded rfl (.ok _)

theorem blames_placementOf : Blames (placementOf properties processors) := by
  refine (blames_orDefault blames_read).bind fun truth => ?_
  split
  · exact blames_natural.bind fun _ => .ok _
  · exact blames_natural.bind fun _ => .ok _

theorem blames_cacheOf : Blames (cacheOf properties) :=
  blames_word.bind fun _ => blames_word.bind fun _ => blames_word.bind fun _ => .ok _

theorem blames_namesOf {expected : Nat} : Blames (namesOf properties key expected) := by
  refine (blames_ifPresent blames_readArray).bind fun names? => ?_
  split
  · exact .ok _
  · exact .guarded rfl (.ok _)

theorem blames_ofProperties : Blames (ofProperties properties processors) := by
  refine blames_packetSizeOf.bind fun _ => ?_
  refine blames_placementOf.bind fun _ => ?_
  refine blames_cacheOf.bind fun _ => ?_
  refine blames_readArray.bind fun _ => ?_
  refine (Blames.mapM (fun _ => blames_readArray) _).bind fun _ => ?_
  refine blames_namesOf.bind fun _ => ?_
  refine blames_namesOf.bind fun _ => ?_
  refine (blames_ifPresent blames_read).bind fun _ => ?_
  refine blames_marketOf.bind fun _ => ?_
  refine blames_path.bind fun _ => ?_
  refine blames_path.bind fun _ => ?_
  refine (blames_orDefault blames_read).bind fun _ => ?_
  refine blames_readArray.bind fun _ => ?_
  exact (blames_orDefault blames_read).bind fun _ => .ok _

/-- Values that the settings cannot take over from a property that may be missing: values of another
kind, numbers that are negative or too large, and lists of another length. Of the numbers of workers
only that of the placement in use is looked at, and the decay may be any number. -/
inductive Refused (properties : Properties) : String → Toml.Value → Prop where
  | packetSize {value : Toml.Value} (unfit : ∀ size : Nat, 0 < size → value ≠ .integer size) :
    Refused properties "acc.packet_size" value
  | distributed {value : Toml.Value} (unfit : ∀ truth, value ≠ .boolean truth) :
    Refused properties "acc.distributed" value
  | nodes {value : Toml.Value} (chosen : properties.get? "acc.distributed" = some (.boolean true))
    (unfit : ∀ nodes : Nat, value ≠ .integer nodes) : Refused properties "acc.nodes" value
  | threads {value : Toml.Value} (chosen : properties.get? "acc.distributed" ≠ some (.boolean true))
    (unfit : ∀ threads : Nat, value ≠ .integer threads) : Refused properties "acc.threads" value
  | dimension {value : Toml.Value} (key : String)
    (read : key ∈ ["cache.max_tap", "cache.segments", "cache.periods"])
    (unfit : ∀ number : UInt32, value ≠ .integer number.toNat) : Refused properties key value
  | names {value : Toml.Value} (key : String) (expected : Nat)
    (read : (key, expected) ∈ [("school.size_attributes", 5), ("work.size_attributes", 6)])
    (unfit : ∀ names : List String, names.length = expected → value ≠ .array (names.map .string)) :
    Refused properties key value
  | text {value : Toml.Value} (key : String)
    (read : key ∈ ["school.enrollment_attribute", "acc.index_label"])
    (unfit : ∀ text, value ≠ .string text) : Refused properties key value
  | marketSegment {value : Toml.Value}
    (unfit : ∀ market : Nat, market ≤ 3 → value ≠ .integer market) :
    Refused properties "gravity.market_segment" value
  | decay {value : Toml.Value} (unfit : value.number? = none) : Refused properties "gravity.decay" value

/-- No settings account for a value that is refused. -/
theorem not_account_of_refused {value : Toml.Value} (found : properties.get? key = some value)
    (refused : Refused properties key value) (sound : WellFormed settings) :
    ¬ Account properties processors settings := by
  intro account
  cases refused with
  | packetSize unfit =>
    have some_zones : 0 < settings.packetSize.toNat :=
      Nat.pos_of_ne_zero fun none => sound.some_packets (UInt64.toNat_inj.mp none)
    exact unfit _ some_zones (account.packetSize.present value found)
  | distributed unfit =>
    match settings.placement, account.placement with
    | .inProcess _, placed => exact unfit false (placed.1.present value found)
    | .distributed _, placed => exact unfit true (placed.1.present value found)
  | nodes chosen unfit =>
    match settings.placement, account.placement with
    | .inProcess _, placed => cases placed.1.present _ chosen
    | .distributed nodes, placed => exact unfit nodes (placed.2.present value found)
  | threads chosen unfit =>
    match settings.placement, account.placement with
    | .inProcess threads, placed => exact unfit threads (placed.2.present value found)
    | .distributed _, placed =>
      cases truth : properties.get? "acc.distributed" with
      | none => exact placed.1.missing truth
      | some other => exact chosen (placed.1.present other truth ▸ truth)
  | dimension key read unfit =>
    simp only [List.mem_cons, List.not_mem_nil, or_false] at read
    rcases read with rfl | rfl | rfl
    · exact unfit _ (account.maxTap.present value found)
    · exact unfit _ (account.segments.present value found)
    · exact unfit _ (account.periods.present value found)
  | names key expected read unfit =>
    simp only [List.mem_cons, List.not_mem_nil, or_false, Prod.mk.injEq] at read
    rcases read with ⟨rfl, rfl⟩ | ⟨rfl, rfl⟩
    · obtain ⟨names, held, same⟩ := account.school.present value found
      exact unfit names (sound.school names held) same
    · obtain ⟨names, held, same⟩ := account.work.present value found
      exact unfit names (sound.work names held) same
  | text key read unfit =>
    simp only [List.mem_cons, List.not_mem_nil, or_false] at read
    rcases read with rfl | rfl
    · obtain ⟨name, -, same⟩ := account.enrollment.present value found
      exact unfit name same
    · exact unfit _ (account.indexLabel.present value found)
  | marketSegment unfit =>
    exact unfit _ sound.market (account.marketSegment.present value found)
  | decay unfit =>
    cases unfit.symm.trans (account.decay.present value found)

/-- What the reading of settings does with properties. -/
structure Accountable (properties : Properties) (processors : Nat) : Prop where
  /-- Properties that are no settings are a fault of the configuration. -/
  blamed : ∀ fault, ofProperties properties processors = .error fault → fault.isConfiguration = true
  /-- Settings come out of the properties if they are well-formed and the properties give them. -/
  accepted : ∀ settings, ofProperties properties processors = .ok settings ↔
    WellFormed settings ∧ Account properties processors settings
  /-- A value that is there and that cannot be taken over is a fault, and no default stands for it. -/
  refused : ∀ key value, properties.get? key = some value → Refused properties key value →
    ∃ fault, ofProperties properties processors = .error fault

/-- For every configuration text, the settings that it is read to are well-formed and what its
properties give, with defaults for nothing but what is missing. -/
theorem ofProperties_account {text : String} (read : Toml.Table.ofText? text = some properties.table)
    (processors : Nat) : Accountable properties processors := by
  have accepted : ∀ settings, ofProperties properties processors = .ok settings ↔
      WellFormed settings ∧ Account properties processors settings := fun _ =>
    ofProperties_eq_ok_iff (Toml.Table.wellFormed_ofText? read)
  refine ⟨blames_ofProperties.blamed, accepted, fun key value found refused => ?_⟩
  cases outcome : ofProperties properties processors with
  | ok settings =>
    obtain ⟨sound, account⟩ := (accepted settings).mp outcome
    exact absurd account (not_account_of_refused found refused sound)
  | error fault => exact ⟨fault, rfl⟩

/-- A configuration text of what has to be there and a decay, which is below zero. -/
def risingText : String :=
  "[constants]\nmodes=[]\nmarket_0=[]\nmarket_1=[]\nmarket_2=[]\nmarket_3=[]\n[acc]\nzone_file=\"z\"\noutput_file=\"o\"\n[size]\nattributes=[]\n[gravity]\ndecay=-1"

theorem ofText?_risingText :
    (Toml.Table.ofText? risingText).map (fun table =>
      ((get? { table } "gravity.decay").bind Toml.Value.integer?,
        (ofProperties { table } 1).map decay)) =
      some (some (-1), .ok (Double.ofInt (-1))) := by decide +kernel

theorem ofProperties_account_rising :
    ∃ properties : Properties, Toml.Table.ofText? risingText = some properties.table ∧
      Accountable properties 1 := by
  obtain ⟨table, read, -⟩ := Option.map_eq_some_iff.mp ofText?_risingText
  exact ⟨{ table }, read, ofProperties_account read 1⟩

/-- A decay may be negative. -/
theorem decay_below_zero :
    ∃ properties : Properties, Toml.Table.ofText? risingText = some properties.table ∧
      properties.get? "gravity.decay" = some (.integer (-1)) ∧
      (ofProperties properties 1).map decay = .ok (Double.ofInt (-1)) := by
  obtain ⟨table, read, looked⟩ := Option.map_eq_some_iff.mp ofText?_risingText
  obtain ⟨found, taken⟩ := Prod.mk.inj looked
  obtain ⟨value, found, whole⟩ := Option.bind_eq_some_iff.mp found
  obtain rfl := integer?_eq_some_iff.mp whole
  exact ⟨{ table }, read, found, taken⟩

end Accessibility.Settings
