import Mathlib.Algebra.Ring.Nat
import Mathlib.Data.List.Nodup
import Mathlib.Data.UInt
import Accessibility.Packet.Range
import Accessibility.Proofs.Number.Word

/-! Packets tile the list they are cut from: each begins where the one before it ended,
and the last ends where the list does (`tiles_of_ranges_eq_ok`). A list is cut as long as words hold
the ends that its packets would have if all were whole, and the numbers of them
(`exists_ranges_iff`), and so is every list whose packets can be numbered (`ranges_spec`). -/
namespace Accessibility.Packet

/-- Packets that follow each other without gap or overlap, up to the position where they
stop. -/
inductive Tiles (stop : Nat) : Nat → List Packet → Prop where
  | done : Tiles stop stop []
  | packet {packet : Packet} {rest : List Packet} : packet.first ≤ packet.last →
    packet.last.toNat < stop → Tiles stop (packet.last.toNat + 1) rest →
    Tiles stop packet.first.toNat (packet :: rest)

/-- Packets that tile a list lie inside it. -/
theorem Tiles.inside {stop start : Nat} {packets : List Packet} (tiles : Tiles stop start packets) :
    ∀ packet ∈ packets, packet.first ≤ packet.last ∧ packet.last.toNat < stop := by
  induction tiles with
  | done => simp
  | packet ordered within _ ih =>
    intro found member
    obtain rfl | later := List.mem_cons.mp member
    · exact ⟨ordered, within⟩
    · exact ih found later

/-- Packets that tile the list from a position on begin there or later. -/
theorem Tiles.le_first {stop start : Nat} {packets : List Packet} (tiles : Tiles stop start packets) :
    ∀ packet ∈ packets, start ≤ packet.first.toNat := by
  induction tiles with
  | done => simp
  | packet ordered _ _ ih =>
    intro found member
    obtain rfl | later := List.mem_cons.mp member
    · exact Nat.le_refl _
    · have := ih found later
      rw [UInt64.le_iff_toNat_le] at ordered
      omega

/-- They stand in the order of their first positions. -/
theorem Tiles.pairwise_first {stop start : Nat} {packets : List Packet}
    (tiles : Tiles stop start packets) : packets.Pairwise fun a b => a.first < b.first := by
  induction tiles with
  | done => exact .nil
  | packet ordered _ rest ih =>
    refine List.pairwise_cons.mpr ⟨fun found member => ?_, ih⟩
    have := rest.le_first found member
    rw [UInt64.le_iff_toNat_le] at ordered
    rw [UInt64.lt_iff_toNat_lt]
    omega

/-- Every position from there up to the end of the list is in one of them. -/
theorem Tiles.exists_around {stop start position : Nat} {packets : List Packet}
    (tiles : Tiles stop start packets) (behind : start ≤ position) (before : position < stop) :
    ∃ packet ∈ packets, packet.first.toNat ≤ position ∧ position ≤ packet.last.toNat := by
  induction tiles with
  | done => omega
  | @packet packet rest _ _ _ ih =>
    by_cases here : position ≤ packet.last.toNat
    · exact ⟨packet, List.mem_cons_self, behind, here⟩
    · obtain ⟨found, member, around⟩ := ih (by omega)
      exact ⟨found, List.mem_cons_of_mem _ member, around⟩

/-- From the first position of a packet on, a list holds the items of the packet and those
behind it. -/
theorem drop_first {α : Type} (items : Array α) {packet : Packet} (ordered : packet.first ≤ packet.last) :
    items.toList.drop packet.first.toNat =
      (items.extract packet.first.toNat (packet.last.toNat + 1)).toList ++
        items.toList.drop (packet.last.toNat + 1) := by
  have order : packet.first.toNat ≤ packet.last.toNat := ordered
  have halves := List.take_append_drop (packet.last.toNat + 1 - packet.first.toNat)
    (items.toList.drop packet.first.toNat)
  rw [List.drop_drop, Nat.add_sub_cancel' (by omega)] at halves
  rw [Array.toList_extract, List.extract_eq_take_drop, halves]

/-- Packets that tile the rest of a list hold its items in their order. -/
theorem Tiles.flatMap_extract {α : Type} {items : Array α} {start : Nat} {packets : List Packet}
    (tiles : Tiles items.size start packets) :
    (packets.flatMap fun packet => (items.extract packet.first.toNat (packet.last.toNat + 1)).toList) =
      items.toList.drop start := by
  induction tiles with
  | done => exact (List.drop_eq_nil_of_le (Nat.le_of_eq Array.length_toList)).symm
  | packet ordered _ _ ih => rw [List.flatMap_cons, ih, drop_first items ordered]

/-- The word behind another one, if there is one. -/
theorem toNat_succ {position : UInt64} (short : position.toNat + 1 < UInt64.size) :
    (position + 1).toNat = position.toNat + 1 := by
  rw [UInt64.toNat_add]
  exact Nat.mod_eq_of_lt short

variable {length size : UInt64} {index : Nat} {packet : Packet} {packets : List Packet} {fault : Fault}

/-- Where there are packets there is something to a packet. -/
theorem size_pos_of_lt_count (within : index < count length size) : 0 < size.toNat := by
  rcases Nat.eq_zero_or_pos size.toNat with zero | positive
  · simp [count, zero] at within
  · exact positive

/-- A packet that there is begins inside the list. -/
theorem mul_lt_of_lt_count (within : index < count length size) : index * size.toNat < length.toNat := by
  have positive := size_pos_of_lt_count within
  have whole : (index + 1) * size.toNat ≤ length.toNat + size.toNat - 1 :=
    Nat.le_trans (Nat.mul_le_mul_right _ within) (Nat.div_mul_le_self ..)
  rw [Nat.succ_mul] at whole
  omega

/-- The packets reach the end of the list. -/
theorem le_count_mul (length : UInt64) (positive : 0 < size.toNat) : length.toNat ≤ count length size * size.toNat := by
  have divided := Nat.div_add_mod (length.toNat + size.toNat - 1) size.toNat
  have remainder := Nat.mod_lt (length.toNat + size.toNat - 1) positive
  rw [Nat.mul_comm] at divided
  show length.toNat ≤ (length.toNat + size.toNat - 1) / size.toNat * size.toNat
  omega

/-- In a list whose packets can be numbered every end fits a word: only the first packet may be
larger than the list. -/
theorem count_mul_lt (small : length.toNat < 2 ^ 32) : count length size * size.toNat < 2 ^ 64 := by
  rcases Nat.eq_zero_or_pos (count length size) with none | some
  · rw [none, Nat.zero_mul]
    decide
  · obtain ⟨before, last⟩ := Nat.exists_eq_add_one_of_ne_zero (Nat.ne_of_gt some)
    have inside := mul_lt_of_lt_count (show before < count length size by omega)
    rw [last, Nat.succ_mul]
    rcases Nat.eq_zero_or_pos before with rfl | later
    · simpa using size.toNat_lt
    · have := Nat.le_mul_of_pos_left size.toNat later
      omega

/-- There are no more packets than positions. -/
theorem count_le (length size : UInt64) : count length size ≤ length.toNat := by
  rcases Nat.eq_zero_or_pos (count length size) with none | some
  · omega
  · have within : count length size - 1 < count length size := by omega
    have inside := mul_lt_of_lt_count within
    have := Nat.le_mul_of_pos_right (count length size - 1) (size_pos_of_lt_count within)
    omega

/-! ## One packet -/

/-- A packet that starts so many whole packets into a list: it ends where the next one starts, or with
the list. -/
structure Piece (length size : UInt64) (index : Nat) (packet : Packet) : Prop where
  id : packet.id.toNat = index % 2 ^ 32 + 1
  first : packet.first.toNat = index * size.toNat
  /-- A word holds the end that the packet has if it is whole. -/
  whole : (index + 1) * size.toNat < 2 ^ 64
  last : packet.last.toNat + 1 = min ((index + 1) * size.toNat) length.toNat

/-- The word at which a packet starts. -/
theorem toNat_start (within : index < count length size) :
    (index.toUInt64 * size).toNat = index * size.toNat := by
  have inside := mul_lt_of_lt_count within
  have early : index ≤ index * size.toNat := Nat.le_mul_of_pos_right index (size_pos_of_lt_count within)
  have bound := length.toNat_lt
  have place : index.toUInt64.toNat = index := UInt64.toNat_ofNat_of_lt' (by
    rw [show UInt64.size = 2 ^ 64 from rfl]
    omega)
  rw [UInt64.toNat_mul, place]
  exact Nat.mod_eq_of_lt (by omega)

theorem nth_eq_ok_iff (within : index < count length size) :
    nth length size index = .ok packet ↔ Piece length size index packet := by
  simp only [nth, bind_eq_ok_iff, pure_eq_ok_iff, Word.next_eq_ok_iff, Word.sum_eq_ok_iff,
    Word.difference_eq_ok_iff, toNat_start within, UInt64.toNat_min, UInt64.toNat_one]
  rw [show index.toUInt32.toNat = index % 2 ^ 32 from rfl]
  constructor
  · rintro ⟨id, numbered, past, ends, last, before, rfl⟩
    have bound := past.toNat_lt
    rw [← Nat.add_one_mul] at ends
    rw [ends] at bound before
    exact ⟨numbered, toNat_start within, bound, before⟩
  · rintro ⟨numbered, starts, whole, before⟩
    have ends : ((index + 1) * size.toNat).toUInt64.toNat = (index + 1) * size.toNat :=
      UInt64.toNat_ofNat_of_lt' whole
    refine ⟨packet.id, numbered, _, ends.trans (Nat.add_one_mul ..), packet.last, by rw [ends, before], ?_⟩
    have first : index.toUInt64 * size = packet.first :=
      UInt64.toNat_inj.mp ((toNat_start within).trans starts.symm)
    rw [first]

theorem nth_eq_error (uncut : nth length size index = .error fault) : fault = .outOfBounds := by
  obtain full | ⟨_, -, uncut⟩ := bind_eq_error_iff.mp uncut
  · exact Word.next_eq_error full
  · obtain wide | ⟨_, -, uncut⟩ := bind_eq_error_iff.mp uncut
    · exact Word.holding_eq_error wide
    · obtain under | ⟨_, -, ⟨⟩⟩ := bind_eq_error_iff.mp uncut
      exact Word.difference_eq_error under

/-- A packet is cut if words hold the end that it has if it is whole, and its number. -/
theorem exists_nth_iff (within : index < count length size) :
    (∃ packet, nth length size index = .ok packet) ↔
      (index + 1) * size.toNat < 2 ^ 64 ∧ index % 2 ^ 32 + 1 < 2 ^ 32 := by
  simp only [nth_eq_ok_iff within]
  constructor
  · rintro ⟨packet, piece⟩
    exact ⟨piece.whole, piece.id ▸ packet.id.toNat_lt⟩
  · rintro ⟨whole, few⟩
    have inside := mul_lt_of_lt_count within
    have bound := length.toNat_lt
    have past : min ((index + 1) * size.toNat) length.toNat - 1 < UInt64.size := by
      rw [show UInt64.size = 2 ^ 64 from rfl]
      omega
    have some : 1 ≤ min ((index + 1) * size.toNat) length.toNat := by
      have := size_pos_of_lt_count within
      rw [Nat.succ_mul]
      omega
    refine ⟨⟨(index % 2 ^ 32 + 1).toUInt32, index.toUInt64 * size,
      (min ((index + 1) * size.toNat) length.toNat - 1).toUInt64⟩, ?_, toNat_start within, whole, ?_⟩
    · exact UInt32.toNat_ofNat_of_lt' few
    · rw [UInt64.toNat_ofNat_of_lt' past]
      exact Nat.sub_add_cancel some

/-- A packet has a position, and no position outside the list. -/
theorem Piece.inside (piece : Piece length size index packet) (within : index < count length size) :
    packet.first ≤ packet.last ∧ packet.last.toNat < length.toNat := by
  have starts := mul_lt_of_lt_count within
  have positive := size_pos_of_lt_count within
  have last := piece.last
  rw [Nat.succ_mul] at last
  rw [UInt64.le_iff_toNat_le, piece.first]
  omega

/-! ## All packets -/

theorem ranges_eq_ok_iff (some_size : size ≠ 0) :
    ranges length size = .ok packets ↔ packets.length = count length size ∧
      ∀ index (within : index < packets.length), Piece length size index packets[index] := by
  rw [ranges, if_neg some_size, mapM_range_eq_ok_iff]
  refine and_congr_right fun many => forall₂_congr fun index within => ?_
  exact nth_eq_ok_iff (many ▸ within)

theorem some_size_of_ranges (cut : ranges length size = .ok packets) : size ≠ 0 := by
  rintro rfl
  cases cut

/-- A list is cut exactly if words hold the end that the last packet would have if it were whole, and
the number of it. -/
theorem exists_ranges_iff (some_size : size ≠ 0) :
    (∃ packets, ranges length size = .ok packets) ↔
      count length size * size.toNat < 2 ^ 64 ∧ count length size < 2 ^ 32 := by
  rw [ranges, if_neg some_size, exists_mapM_iff]
  simp only [List.mem_range]
  constructor
  · intro each
    refine ⟨?_, ?_⟩
    · rcases Nat.eq_zero_or_pos (count length size) with none | some
      · rw [none, Nat.zero_mul]
        decide
      · have within : count length size - 1 < count length size := by omega
        have fits := ((exists_nth_iff within).mp (each _ within)).1
        rwa [Nat.sub_add_cancel some] at fits
    · -- The packet that there is no number for is the first with a place beyond the numbers.
      by_contra many
      have within : 2 ^ 32 - 1 < count length size := by omega
      have few := ((exists_nth_iff within).mp (each _ within)).2
      exact absurd few (by decide)
  · rintro ⟨fits, few⟩ index within
    have whole := Nat.mul_le_mul_right size.toNat (show index + 1 ≤ count length size from within)
    exact (exists_nth_iff within).mpr ⟨by omega, by omega⟩

/-- A list that is not cut for want of words stops the run. -/
theorem ranges_eq_error (some_size : size ≠ 0) (uncut : ranges length size = .error fault) :
    fault = .outOfBounds := by
  rw [ranges, if_neg some_size] at uncut
  obtain ⟨_, _, _, -, -, uncut⟩ := mapM_eq_error_iff.mp uncut
  exact nth_eq_error uncut

theorem ranges_of_wide (some_size : size ≠ 0)
    (wide : ¬ (count length size * size.toNat < 2 ^ 64 ∧ count length size < 2 ^ 32)) :
    ranges length size = .error .outOfBounds := by
  cases cut : ranges length size with
  | ok packets => exact absurd ((exists_ranges_iff some_size).mp ⟨packets, cut⟩) wide
  | error fault => rw [ranges_eq_error some_size cut]

/-- From any of them on, the pieces of a list tile it. -/
private theorem tiles_from (positive : 0 < size.toNat) (start : Nat)
    (whole : start + packets.length = count length size)
    (pieces : ∀ index (within : index < packets.length), Piece length size (start + index) packets[index]) :
    Tiles length.toNat (min (start * size.toNat) length.toNat) packets := by
  induction packets generalizing start with
  | nil =>
    have reached := le_count_mul length positive
    rw [← whole, List.length_nil, Nat.add_zero] at reached
    rw [Nat.min_eq_right reached]
    exact .done
  | cons packet rest ih =>
    rw [List.length_cons] at whole
    have within : start < count length size := by omega
    have piece : Piece length size start packet := pieces 0 (Nat.succ_pos _)
    obtain ⟨ordered, short⟩ := piece.inside within
    rw [Nat.min_eq_left (Nat.le_of_lt (mul_lt_of_lt_count within)), ← piece.first]
    refine .packet ordered short ?_
    rw [piece.last]
    refine ih (start + 1) (by omega) fun index later => ?_
    have piece := pieces (index + 1) (Nat.succ_lt_succ later)
    rwa [← Nat.add_assoc, Nat.add_right_comm] at piece

/-- The packets that a list is cut into tile it. -/
theorem tiles_of_ranges_eq_ok (cut : ranges length size = .ok packets) :
    Tiles length.toNat 0 packets := by
  have some_size := some_size_of_ranges cut
  have positive : 0 < size.toNat := Nat.pos_of_ne_zero fun zero => some_size (UInt64.toNat_inj.mp zero)
  obtain ⟨many, pieces⟩ := (ranges_eq_ok_iff some_size).mp cut
  have tiles := tiles_from positive 0 ((Nat.zero_add _).trans many) fun index within => by
    rw [Nat.zero_add]
    exact pieces index within
  rwa [Nat.zero_mul, Nat.zero_min] at tiles

/-- No two of them have the same number. -/
theorem nodup_ids (cut : ranges length size = .ok packets) : (packets.map Packet.id).Nodup := by
  have some_size := some_size_of_ranges cut
  obtain ⟨-, few⟩ := (exists_ranges_iff some_size).mp ⟨packets, cut⟩
  obtain ⟨many, pieces⟩ := (ranges_eq_ok_iff some_size).mp cut
  refine List.nodup_iff_injective_get.mpr fun a b same => Fin.ext ?_
  have inside := a.isLt
  have inside' := b.isLt
  simp only [List.length_map, many] at inside inside'
  simp only [List.get_eq_getElem, List.getElem_map, ← UInt32.toNat_inj, (pieces _ _).id] at same
  omega

/-- The packets of a list tile it, and no two have the same number. -/
theorem ranges_spec (small : length.toNat < 2 ^ 32) (some_size : size ≠ 0) :
    ∃ packets, ranges length size = .ok packets ∧ Tiles length.toNat 0 packets ∧
      (packets.map Packet.id).Nodup := by
  have few := count_le length size
  obtain ⟨packets, cut⟩ := (exists_ranges_iff some_size).mpr ⟨count_mul_lt small, by omega⟩
  exact ⟨packets, cut, tiles_of_ranges_eq_ok cut, nodup_ids cut⟩

variable {positions : Nat}

/-- A list with few enough positions to be counted in a word is tiled by its packets. -/
theorem exists_ranges (few : positions < 2 ^ 32) (some_size : size ≠ 0) :
    ∃ packets, ranges positions.toUInt64 size = .ok packets ∧ Tiles positions 0 packets ∧
      (packets.map Packet.id).Nodup := by
  have length : positions.toUInt64.toNat = positions :=
    UInt64.toNat_ofNat_of_lt' (by rw [show UInt64.size = 2 ^ 64 from rfl]; omega)
  obtain ⟨packets, cut, tiles, distinct⟩ := ranges_spec (by rwa [length]) some_size
  rw [length] at tiles
  exact ⟨packets, cut, tiles, distinct⟩

theorem tiles_of_ranges (few : positions < 2 ^ 32) {packets : List Packet}
    (cut : ranges positions.toUInt64 size = .ok packets) : Tiles positions 0 packets := by
  obtain ⟨_, same, tiles, _⟩ := exists_ranges few (some_size_of_ranges cut)
  rwa [Except.ok.inj (same.symm.trans cut)] at tiles

end Accessibility.Packet
