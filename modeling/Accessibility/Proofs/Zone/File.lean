import Mathlib.Data.List.Forall2
import Mathlib.Data.List.Nodup
import Mathlib.Data.List.Perm.Basic
import Accessibility.Proofs.Outcome
import Accessibility.Proofs.Text.Delimited
import Accessibility.Proofs.Zone.Lookup
import Accessibility.Zone.File

/-! Zone files as records of named cells. Where no two columns have one name, a row makes the zone
that its cells tell by their names (`zoneOfRow_eq_ok_iff`), wherever they stand; so a file makes the
same system when its columns are rearranged, as long as those of the attributes stay in order, and
when its records are (`read_eq_of_rearranged`). -/
namespace Accessibility.ZoneFile

variable {bytes bytes' : List UInt8} {header header' fields record names : List String}
  {records records' : List (List String)} {columns : Columns} {zone : Zone} {zones : List Zone}
  {number : Nat} {order : List Nat}

/-- The names of the columns that every file needs, in the order they are looked for. -/
def requiredColumns : List String := ["zone", "x", "y", "gs_district", "hs_district"]

/-! ## The header -/

theorem column_cases (header : List String) (name : String) :
    (∃ i, column header name = .ok i ∧ header[i]? = some name) ∨
      name ∉ header ∧ column header name = .error (.missingColumn name) := by
  cases found : header.findIdx? (· = name) with
  | some i =>
    obtain ⟨within, here, -⟩ := List.findIdx?_eq_some_iff_getElem.mp found
    refine .inl ⟨i, by simp only [column, found], ?_⟩
    rw [List.getElem?_eq_getElem within, of_decide_eq_true here]
  | none =>
    refine .inr ⟨fun member => ?_, by simp only [column, found]⟩
    simpa using List.findIdx?_eq_none_iff.mp found name member

/-- Where the columns of a header stand. -/
structure Located (header : List String) (columns : Columns) : Prop where
  zone : header[columns.zone]? = some "zone"
  x : header[columns.x]? = some "x"
  y : header[columns.y]? = some "y"
  grade : header[columns.grade]? = some "gs_district"
  high : header[columns.high]? = some "hs_district"
  attributes : columns.attributes = (header.mapIdx fun i name => (i, name)).filter fun (i, _) =>
    i ∉ [columns.zone, columns.x, columns.y, columns.grade, columns.high]

/-- A header either has its columns or lacks one, the first of which is named. -/
theorem ofHeader_cases (header : List String) :
    (∃ columns, Columns.ofHeader header = .ok columns ∧ Located header columns) ∨
      ∃ name, requiredColumns.find? (· ∉ header) = some name ∧
        Columns.ofHeader header = .error (.missingColumn name) := by
  have present {i : Nat} {name : String} (there : header[i]? = some name) : name ∈ header :=
    List.mem_of_getElem? there
  rcases column_cases header "zone" with ⟨zone, zoneOk, zoneAt⟩ | ⟨missing, failed⟩
  case inr =>
    exact .inr ⟨"zone", by simp [requiredColumns, missing], by simp only [Columns.ofHeader, failed]; rfl⟩
  rcases column_cases header "x" with ⟨x, xOk, xAt⟩ | ⟨missing, failed⟩
  case inr =>
    refine .inr ⟨"x", by simp [requiredColumns, missing, present zoneAt], ?_⟩
    simp only [Columns.ofHeader, zoneOk, failed]
    rfl
  rcases column_cases header "y" with ⟨y, yOk, yAt⟩ | ⟨missing, failed⟩
  case inr =>
    refine .inr ⟨"y", by simp [requiredColumns, missing, present zoneAt, present xAt], ?_⟩
    simp only [Columns.ofHeader, zoneOk, xOk, failed]
    rfl
  rcases column_cases header "gs_district" with ⟨grade, gradeOk, gradeAt⟩ | ⟨missing, failed⟩
  case inr =>
    refine .inr ⟨"gs_district",
      by simp [requiredColumns, missing, present zoneAt, present xAt, present yAt], ?_⟩
    simp only [Columns.ofHeader, zoneOk, xOk, yOk, failed]
    rfl
  rcases column_cases header "hs_district" with ⟨high, highOk, highAt⟩ | ⟨missing, failed⟩
  case inr =>
    refine .inr ⟨"hs_district", by simp [requiredColumns, missing, present zoneAt, present xAt,
      present yAt, present gradeAt], ?_⟩
    simp only [Columns.ofHeader, zoneOk, xOk, yOk, gradeOk, failed]
    rfl
  exact .inl ⟨_, by simp only [Columns.ofHeader, zoneOk, xOk, yOk, gradeOk, highOk]; rfl,
    zoneAt, xAt, yAt, gradeAt, highAt, rfl⟩

theorem located_of_ofHeader (given : Columns.ofHeader header = .ok columns) :
    Located header columns := by
  rcases ofHeader_cases header with ⟨columns', given', located⟩ | ⟨name, -, failed⟩
  · obtain rfl : columns' = columns := Except.ok.inj (given'.symm.trans given)
    exact located
  · cases failed.symm.trans given

theorem Located.mem_header (located : Located header columns) :
    ∀ name ∈ requiredColumns, name ∈ header := by
  simp only [requiredColumns, List.forall_mem_cons, List.not_mem_nil, false_imp_iff, implies_true,
    and_true]
  exact ⟨List.mem_of_getElem? located.zone, List.mem_of_getElem? located.x,
    List.mem_of_getElem? located.y, List.mem_of_getElem? located.grade,
    List.mem_of_getElem? located.high⟩

/-- Which columns there are decides whether a header is refused, and for which name. -/
theorem ofHeader_error_congr {refusal : Refusal} (same : ∀ name, name ∈ header ↔ name ∈ header')
    (failed : Columns.ofHeader header = .error refusal) :
    Columns.ofHeader header' = .error refusal := by
  rcases ofHeader_cases header with ⟨columns, given, -⟩ | ⟨name, first, given⟩
  · cases given.symm.trans failed
  · obtain rfl : Refusal.missingColumn name = refusal := Except.error.inj (given.symm.trans failed)
    simp only [same] at first
    rcases ofHeader_cases header' with ⟨columns, -, located⟩ | ⟨name', first', given'⟩
    · have missing := List.find?_some first
      have there := located.mem_header name (List.mem_of_find?_eq_some first)
      simp [there] at missing
    · obtain rfl : name = name' := Option.some.inj (first.symm.trans first')
      exact given'

/-- In a header of distinct names a name tells a column. -/
theorem place_eq_iff (distinct : header.Nodup) {i j : Nat} {name name' : String}
    (here : header[i]? = some name) (there : header[j]? = some name') : i = j ↔ name = name' := by
  constructor
  · rintro rfl
    exact Option.some.inj (here.symm.trans there)
  · rintro rfl
    exact (List.getElem?_inj (List.getElem?_eq_some_iff.mp here).1 distinct).mp
      (here.trans there.symm)

theorem Located.getElem?_of_mem (located : Located header columns) {place : Nat × String}
    (member : place ∈ columns.attributes) : header[place.1]? = some place.2 := by
  rw [located.attributes] at member
  obtain ⟨i, within, rfl⟩ := List.mem_mapIdx.mp (List.mem_filter.mp member).1
  exact List.getElem?_eq_getElem within

/-- The columns of the attributes are those of the other names, in the order of the header. -/
theorem Located.map_attributes (located : Located header columns) (distinct : header.Nodup) :
    columns.attributes.map (·.2) = header.filter (· ∉ requiredColumns) := by
  have names : (header.mapIdx fun i name => (i, name)).map (·.2) = header :=
    List.ext_getElem (by simp) (by simp)
  have others : columns.attributes =
      (header.mapIdx fun i name => (i, name)).filter ((· ∉ requiredColumns) ∘ (·.2)) := by
    rw [located.attributes]
    refine List.filter_congr fun place member => ?_
    obtain ⟨i, within, rfl⟩ := List.mem_mapIdx.mp member
    have here := List.getElem?_eq_getElem within
    simp [requiredColumns, place_eq_iff distinct here located.zone,
      place_eq_iff distinct here located.x, place_eq_iff distinct here located.y,
      place_eq_iff distinct here located.grade, place_eq_iff distinct here located.high]
  rw [others, ← List.filter_map, names]

/-! ## The rows -/

/-- A named cell that can be read, and what it reads as. -/
def Cell {α : Type} (cells : List (String × String)) (name : String) (read? : String → Option α)
    (value : α) : Prop :=
  ∃ text, (name, text) ∈ cells ∧ read? text = some value

/-- The zone that named cells tell, with the attributes of the given names. -/
structure Tells (cells : List (String × String)) (names : List String) (zone : Zone) : Prop where
  id : Cell cells "zone" wholeOfText? zone.id
  x : Cell cells "x" Double.ofText? zone.x
  y : Cell cells "y" Double.ofText? zone.y
  grade : Cell cells "gs_district" wholeOfText? zone.districts.grade
  high : Cell cells "hs_district" wholeOfText? zone.districts.high
  attributes : List.Forall₂ (fun name value => Cell cells name Double.ofText? value) names
    zone.attributes

theorem Tells.imp {cells cells' : List (String × String)} (within : ∀ cell ∈ cells, cell ∈ cells')
    (tells : Tells cells names zone) : Tells cells' names zone := by
  have carried {α : Type} {name : String} {read? : String → Option α} {value : α} :
      Cell cells name read? value → Cell cells' name read? value :=
    fun ⟨text, member, read⟩ => ⟨text, within _ member, read⟩
  exact ⟨carried tells.id, carried tells.x, carried tells.y, carried tells.grade,
    carried tells.high, tells.attributes.imp fun _ _ => carried⟩

theorem field_eq_ok_iff {α : Type} {read? : String → Option α}
    {refusal : Nat → String → String → Refusal} {place : Nat} {value : α} {name : String}
    (distinct : header.Nodup) (there : header[place]? = some name) :
    field read? refusal header fields number place = .ok value ↔
      Cell (header.zip fields) name read? value := by
  have only (text : String) : (name, text) ∈ header.zip fields ↔ fields[place]? = some text := by
    simp only [List.mem_iff_getElem?, List.getElem?_zip_eq_some]
    constructor
    · rintro ⟨i, here, found⟩
      rwa [← (place_eq_iff distinct here there).mpr rfl]
    · exact fun found => ⟨place, there, found⟩
  simp only [field, Cell, only]
  cases fields[place]? with
  | none => simp
  | some text => cases told : read? text <;> simp [told]

theorem mapM_field_eq_ok_iff {refusal : Nat → String → String → Refusal}
    {places : List (Nat × String)} {values : List Double} (distinct : header.Nodup)
    (there : ∀ place ∈ places, header[place.1]? = some place.2) :
    (places.mapM fun (i, _) => field Double.ofText? refusal header fields number i) = .ok values ↔
      List.Forall₂ (fun name value => Cell (header.zip fields) name Double.ofText? value)
        (places.map (·.2)) values := by
  induction places generalizing values with
  | nil =>
    rw [List.map_nil, List.forall₂_nil_left_iff]
    exact ⟨fun same => (Except.ok.inj same).symm, fun same => congrArg Except.ok same.symm⟩
  | cons place places ih =>
    have ih (values : List Double) :=
      @ih values fun other member => there other (List.mem_cons_of_mem _ member)
    rw [List.mapM_cons, bind_eq_ok_iff, List.map_cons, List.forall₂_cons_left_iff]
    simp only [bind_eq_ok_iff, field_eq_ok_iff distinct (there place List.mem_cons_self), ih]
    constructor
    · rintro ⟨value, first, others, rest, same⟩
      exact ⟨value, others, first, rest, (Except.ok.inj same).symm⟩
    · rintro ⟨value, others, first, rest, rfl⟩
      exact ⟨value, first, others, rest, rfl⟩

/-- A row makes the zone that its cells tell by their names. -/
theorem zoneOfRow_eq_ok_iff (distinct : header.Nodup) (located : Located header columns) :
    zoneOfRow header columns number fields = .ok zone ↔
      Tells (header.zip fields) (columns.attributes.map (·.2)) zone := by
  simp only [zoneOfRow, bind_eq_ok_iff, field_eq_ok_iff distinct located.zone,
    field_eq_ok_iff distinct located.x, field_eq_ok_iff distinct located.y,
    field_eq_ok_iff distinct located.grade, field_eq_ok_iff distinct located.high,
    mapM_field_eq_ok_iff distinct fun place => located.getElem?_of_mem]
  constructor
  · rintro ⟨id, idTold, x, xTold, y, yTold, grade, gradeTold, high, highTold, values, told, same⟩
    cases same
    exact ⟨idTold, xTold, yTold, gradeTold, highTold, told⟩
  · intro tells
    exact ⟨zone.id, tells.id, zone.x, tells.x, zone.y, tells.y, zone.districts.grade, tells.grade,
      zone.districts.high, tells.high, zone.attributes, tells.attributes, rfl⟩

/-- Rows make the zones that their cells tell. -/
theorem zonesOfRows_eq_ok_iff (distinct : header.Nodup) (located : Located header columns)
    {rows : List (List String)} :
    zonesOfRows header columns number (rows.map .ok) = .ok zones ↔
      List.Forall₂ (fun record zone => Tells (header.zip record) (columns.attributes.map (·.2)) zone)
        (rows.map (·.map Blank.trimmed)) zones := by
  induction rows generalizing number zones with
  | nil =>
    rw [List.map_nil, List.map_nil, List.forall₂_nil_left_iff]
    exact ⟨fun same => (Except.ok.inj same).symm, fun same => congrArg Except.ok same.symm⟩
  | cons row rows ih =>
    rw [List.map_cons, List.map_cons, List.forall₂_cons_left_iff]
    simp only [zonesOfRows, bind_eq_ok_iff, zoneOfRow_eq_ok_iff distinct located, ih]
    constructor
    · rintro ⟨zone, first, others, rest, same⟩
      exact ⟨zone, others, first, rest, (Except.ok.inj same).symm⟩
    · rintro ⟨zone, others, first, rest, rfl⟩
      exact ⟨zone, first, others, rest, rfl⟩

/-! ## The whole file -/

/-- A list with its entries at the places of `order`. -/
def rearranged {α : Type} (order : List Nat) (xs : List α) : List α := order.filterMap (xs[·]?)

theorem rearranged_range {α : Type} (xs : List α) : rearranged (List.range xs.length) xs = xs := by
  induction xs with
  | nil => rfl
  | cons x xs ih =>
    rw [List.length_cons, List.range_succ_eq_map]
    simpa [rearranged, List.filterMap_map, Function.comp_def] using ih

theorem rearranged_perm {α : Type} {xs : List α} (all : order.Perm (List.range xs.length)) :
    (rearranged order xs).Perm xs := by
  have moved : (rearranged order xs).Perm (rearranged (List.range xs.length) xs) :=
    all.filterMap _
  rwa [rearranged_range] at moved

theorem rearranged_zip {α β : Type} {xs : List α} {ys : List β} (same : xs.length = ys.length)
    (order : List Nat) :
    (rearranged order xs).zip (rearranged order ys) = rearranged order (xs.zip ys) := by
  induction order with
  | nil => rfl
  | cons i order ih =>
    have both : (xs.zip ys).length = xs.length := by simp [same]
    simp only [rearranged] at ih
    by_cases within : i < xs.length
    · have within' : i < ys.length := same ▸ within
      have there : (xs.zip ys)[i]? = some (xs[i], ys[i]) :=
        List.getElem?_zip_eq_some.mpr
          ⟨List.getElem?_eq_getElem within, List.getElem?_eq_getElem within'⟩
      simp only [rearranged, List.filterMap_cons, List.getElem?_eq_getElem within,
        List.getElem?_eq_getElem within', there, List.zip_cons_cons, ih]
    · have beyond : ys[i]? = none := List.getElem?_eq_none (by omega)
      have past : (xs.zip ys)[i]? = none := List.getElem?_eq_none (by omega)
      simp [rearranged, List.getElem?_eq_none (Nat.le_of_not_lt within), beyond, past, ih]

/-- The header and the records of a text, as they are split and trimmed. -/
structure Spells (bytes : List UInt8) (header : List String) (records : List (List String)) :
    Prop where
  headed : ∃ fields, Delimited.header bytes = .ok fields ∧ fields.map Blank.trimmed = header
  split : ∃ rows : List (List String), Delimited.rows bytes = rows.map .ok ∧
    rows.map (·.map Blank.trimmed) = records

/-- Records are as wide as the header. -/
theorem Spells.length_eq (spells : Spells bytes header records) :
    ∀ record ∈ records, record.length = header.length := by
  obtain ⟨⟨first, headed, rfl⟩, rows, split, rfl⟩ := spells
  intro record member
  obtain ⟨row, inside, rfl⟩ := List.mem_map.mp member
  have given : Except.ok row ∈ Delimited.rows bytes := by
    rw [split]
    exact List.mem_map_of_mem inside
  obtain ⟨i, within, given⟩ := List.mem_mapIdx.mp given
  simp only [Delimited.row] at given
  split at given
  next wide =>
    rw [List.length_map, List.length_map, Delimited.length_of_texts given, wide, Delimited.length_of_texts headed]
  next => cases given

theorem parse_of_error {refusal : Refusal} (spells : Spells bytes header records)
    (failed : Columns.ofHeader header = .error refusal) : parse bytes = .error refusal := by
  obtain ⟨⟨first, headed, rfl⟩, -⟩ := spells
  simp only [parse, headed]
  change Columns.ofHeader _ >>= _ = _
  rw [failed]
  rfl

theorem parse_of_tells (spells : Spells bytes header records) (distinct : header.Nodup)
    (given : Columns.ofHeader header = .ok columns)
    (told : List.Forall₂ (fun record zone =>
      Tells (header.zip record) (columns.attributes.map (·.2)) zone) records zones) :
    parse bytes = .ok (columns.attributes.map (·.2), zones) := by
  obtain ⟨⟨first, headed, rfl⟩, rows, split, rfl⟩ := spells
  have made : zonesOfRows _ columns 1 (rows.map .ok) = .ok zones :=
    (zonesOfRows_eq_ok_iff distinct (located_of_ofHeader given)).mpr told
  simp only [parse, headed, split]
  change Columns.ofHeader _ >>= _ = _
  rw [given]
  change zonesOfRows _ _ _ _ >>= _ = _
  rw [made]
  rfl

/-- A file whose rows all parse makes the same system when its records are put in another order and
its columns are rearranged, as long as the attributes' columns stay in order. -/
theorem read_eq_of_rearranged (spells : Spells bytes header records) (distinct : header.Nodup)
    (parses : ∀ columns, Columns.ofHeader header = .ok columns →
      ∃ zones, zonesOfRows header columns 1 (Delimited.rows bytes) = .ok zones)
    (all : order.Perm (List.range header.length))
    (attributes : (rearranged order header).filter (· ∉ requiredColumns) =
      header.filter (· ∉ requiredColumns))
    (moved : records'.Perm (records.map (rearranged order)))
    (spells' : Spells bytes' (rearranged order header) records') : read bytes' = read bytes := by
  have headers := rearranged_perm all
  have distinct' : (rearranged order header).Nodup := headers.nodup_iff.mpr distinct
  have sameNames (name : String) : name ∈ header ↔ name ∈ rearranged order header :=
    headers.mem_iff.symm
  rcases ofHeader_cases header with ⟨columns, given, located⟩ | ⟨name, -, failed⟩
  · obtain ⟨zones, made⟩ := parses columns given
    have told : List.Forall₂ (fun record zone =>
        Tells (header.zip record) (columns.attributes.map (·.2)) zone) records zones := by
      obtain ⟨rows, split, rfl⟩ := spells.split
      exact (zonesOfRows_eq_ok_iff distinct located).mp (split ▸ made)
    obtain ⟨columns', given', located'⟩ : ∃ columns', Columns.ofHeader (rearranged order header) =
        .ok columns' ∧ Located (rearranged order header) columns' := by
      rcases ofHeader_cases (rearranged order header) with there | ⟨name, -, failed⟩
      · exact there
      · cases given.symm.trans (ofHeader_error_congr (fun name => (sameNames name).symm) failed)
    have names : columns'.attributes.map (·.2) = columns.attributes.map (·.2) := by
      rw [located'.map_attributes distinct', located.map_attributes distinct, attributes]
    have told' : List.Forall₂ (fun record zone =>
        Tells ((rearranged order header).zip record) (columns'.attributes.map (·.2)) zone)
        (records.map (rearranged order)) zones := by
      rw [List.forall₂_map_left_iff, names]
      refine ((List.forall₂_and_left _ _).mpr ⟨spells.length_eq, told⟩).imp ?_
      rintro record zone ⟨wide, tells⟩
      rw [rearranged_zip wide.symm]
      have cells : (rearranged order (header.zip record)).Perm (header.zip record) :=
        rearranged_perm (by simpa [wide] using all)
      exact tells.imp fun cell => cells.mem_iff.mpr
    obtain ⟨zones', told', reordered⟩ := List.perm_comp_forall₂ moved told'
    simp only [read, parse_of_tells spells distinct given told,
      parse_of_tells spells' distinct' given' told', names]
    exact ZoneSystem.ofZones_eq_of_perm reordered
  · have failed' := ofHeader_error_congr sameNames failed
    simp only [read, parse_of_error spells failed, parse_of_error spells' failed']

/-- The order of the input does not matter to a zone system. Records in another order make the same
system or fail with the same fault. In a system that is made the ids ascend strictly, every zone
has a value for each attribute and districts below the offset, and looking an id up agrees with
going through all zones. So a file whose columns have distinct names and whose rows all parse makes
the same system when its records are put in another order and its columns are rearranged, as long
as the attributes' columns stay in order. -/
theorem zones_independent_of_order :
    (∀ (names : List String) (zones zones' : List Zone), zones'.Perm zones →
      ZoneSystem.ofZones names zones' = ZoneSystem.ofZones names zones) ∧
      (∀ (names : List String) (zones : List Zone) (system : ZoneSystem),
        ZoneSystem.ofZones names zones = .ok system →
          ZoneSystem.Ascending system.zones.toList ∧
          (∀ zone ∈ system.zones.toList, zone.attributes.length = system.attributeNames.length ∧
            zone.districts.grade < 1000000 ∧ zone.districts.high < 1000000) ∧
          (∀ id, system.contains id = system.zones.toList.any (·.id = id)) ∧
          (∀ id, system.zone id = match system.zones.toList.find? (·.id = id) with
            | some zone => .ok zone
            | none => .error (ZoneSystem.Refusal.unknownZone id).fault) ∧
          system.maxZone = (system.zones.toList.map (·.id)).foldl max 0) ∧
      ∀ (bytes bytes' : List UInt8) (header : List String) (records records' : List (List String))
        (order : List Nat),
        Spells bytes header records → header.Nodup →
        (∀ columns, Columns.ofHeader header = .ok columns →
          ∃ zones, zonesOfRows header columns 1 (Delimited.rows bytes) = .ok zones) →
        order.Perm (List.range header.length) →
        (rearranged order header).filter (· ∉ requiredColumns) =
          header.filter (· ∉ requiredColumns) →
        records'.Perm (records.map (rearranged order)) →
        Spells bytes' (rearranged order header) records' →
          read bytes' = read bytes := by
  refine ⟨fun names zones zones' perm => ZoneSystem.ofZones_eq_of_perm perm, ?_, ?_⟩
  · intro names zones system built
    have ascending := ZoneSystem.ascending_of_ofZones built
    refine ⟨ascending, fun zone member => ?_, fun id => ?_, fun id => ?_,
      ZoneSystem.maxZone_eq_foldl ascending⟩
    · exact ZoneSystem.flaw?_eq_none_iff.mp (ZoneSystem.flaw?_of_ofZones built zone member)
    · rw [ZoneSystem.contains, ZoneSystem.find?_eq_find? ascending, List.isSome_find?]
    · rw [← ZoneSystem.find?_eq_find? ascending]
      rfl
  · intro bytes bytes' header records records' order spells distinct parses all attributes moved
      spells'
    exact read_eq_of_rearranged spells distinct parses all attributes moved spells'

/-- Two zones, and the same two with their columns and their rows in another order. -/
def plainFile : List UInt8 := Delimited.bytesOf
  "zone,x,y,gs_district,hs_district,pop,jobs\n1,0,0,3,5,10,20\n2,1,4,0,5,30,40\n"

def rearrangedFile : List UInt8 := Delimited.bytesOf
  "hs_district,pop,zone,y,jobs,gs_district,x\n5,30,2,4,40,0,1\n5,10,1,0,20,3,0\n"

theorem spells_plainFile : Spells plainFile (requiredColumns ++ ["pop", "jobs"])
    [["1", "0", "0", "3", "5", "10", "20"], ["2", "1", "4", "0", "5", "30", "40"]] where
  headed := ⟨requiredColumns ++ ["pop", "jobs"], by decide +kernel, by decide +kernel⟩
  split := ⟨[["1", "0", "0", "3", "5", "10", "20"], ["2", "1", "4", "0", "5", "30", "40"]],
    by decide +kernel, by decide +kernel⟩

theorem spells_rearrangedFile :
    Spells rearrangedFile ["hs_district", "pop", "zone", "y", "jobs", "gs_district", "x"]
      [["5", "30", "2", "4", "40", "0", "1"], ["5", "10", "1", "0", "20", "3", "0"]] where
  headed := ⟨["hs_district", "pop", "zone", "y", "jobs", "gs_district", "x"],
    by decide +kernel, by decide +kernel⟩
  split := ⟨[["5", "30", "2", "4", "40", "0", "1"], ["5", "10", "1", "0", "20", "3", "0"]],
    by decide +kernel, by decide +kernel⟩

def lowZone : Zone := ⟨1, .zero, .zero, ⟨3, 5⟩, []⟩

def highZone : Zone := ⟨2, .zero, .zero, ⟨0, 5⟩, []⟩

theorem ofZones_lowZone_highZone :
    ZoneSystem.ofZones [] [lowZone, highZone] = .ok ⟨[], #[lowZone, highZone]⟩ := by
  have sorted : ZoneSystem.ordered [lowZone, highZone] = [lowZone, highZone] :=
    List.mergeSort_of_pairwise (by decide)
  rw [ZoneSystem.ofZones, sorted]
  rfl

theorem zones_independent_of_order_rearranged :
    ZoneSystem.ofZones [] [highZone, lowZone] = ZoneSystem.ofZones [] [lowZone, highZone] ∧
      ZoneSystem.zone ⟨[], #[lowZone, highZone]⟩ 2 = .ok highZone ∧
      read rearrangedFile = read plainFile := by
  refine ⟨zones_independent_of_order.1 [] [lowZone, highZone] [highZone, lowZone] (by decide),
    (zones_independent_of_order.2.1 [] _ _ ofZones_lowZone_highZone).2.2.2.1 2, ?_⟩
  refine zones_independent_of_order.2.2 plainFile rearrangedFile _ _ _ [4, 5, 0, 2, 6, 3, 1]
    spells_plainFile (by decide) ?_ (by decide) (by decide) (by decide) spells_rearrangedFile
  intro columns given
  obtain rfl : (⟨0, 1, 2, 3, 4, [(5, "pop"), (6, "jobs")]⟩ : Columns) = columns :=
    Except.ok.inj given
  have all : (zonesOfRows (requiredColumns ++ ["pop", "jobs"])
      ⟨0, 1, 2, 3, 4, [(5, "pop"), (6, "jobs")]⟩ 1 (Delimited.rows plainFile)).isOk = true := by
    decide +kernel
  cases made : zonesOfRows (requiredColumns ++ ["pop", "jobs"])
      ⟨0, 1, 2, 3, 4, [(5, "pop"), (6, "jobs")]⟩ 1 (Delimited.rows plainFile) with
  | ok zones => exact ⟨zones, rfl⟩
  | error refusal =>
    rw [made] at all
    cases all

end Accessibility.ZoneFile
