import Mathlib.Algebra.Order.Floor.Div
import Accessibility.Proofs.Packet.Range

/-! How a list is cut into packets, position by position, and what words have to do with it.
Lists whose packets can be numbered are cut as they should be, and no word on the way there is too
small (`ranges_partition`). A longer list is cut so if words hold the end that the last packet would
have if it were whole and the number of it, and otherwise it stops the run: no packet ever has a place
or a number that words have brought round (`ranges_exact_iff`). -/
namespace Accessibility.Packet

variable {length size : UInt64} {index : Nat} {packet : Packet} {packets : List Packet}

/-! ## Words -/

/-- No step towards a packet leaves the words: they hold where it starts, where it would end if it were
whole, its last position, its place among the packets, and its number. -/
structure Exact (length size : UInt64) (index : Nat) (packet : Packet) : Prop where
  first : packet.first.toNat = index * size.toNat
  whole : packet.first.toNat + size.toNat < UInt64.size
  last : packet.last.toNat + 1 = min (packet.first.toNat + size.toNat) length.toNat
  place : index.toUInt32.toNat = index
  id : packet.id.toNat = index.toUInt32.toNat + 1

theorem exact_iff_piece :
    Exact length size index packet ↔ Piece length size index packet ∧ index < 2 ^ 32 := by
  have place : index.toUInt32.toNat = index % 2 ^ 32 := rfl
  constructor
  · rintro ⟨first, whole, last, same, id⟩
    rw [place] at same id
    rw [first, ← Nat.add_one_mul] at whole last
    exact ⟨⟨id, first, whole, last⟩, by omega⟩
  · rintro ⟨⟨id, first, whole, last⟩, few⟩
    rw [← place] at id
    rw [Nat.add_one_mul, ← first] at whole last
    exact ⟨first, whole, last, place.trans (Nat.mod_eq_of_lt few), id⟩

/-- A packet is cut without a step that leaves the words if they hold the end that it has if it is
whole, and its number counted from one. -/
theorem exists_exact_iff (within : index < count length size) :
    (∃ packet, nth length size index = .ok packet ∧ Exact length size index packet) ↔
      (index + 1) * size.toNat < 2 ^ 64 ∧ index + 1 < 2 ^ 32 := by
  simp only [nth_eq_ok_iff within, exact_iff_piece]
  constructor
  · rintro ⟨packet, piece, -, few⟩
    have numbered := piece.id
    have bound := packet.id.toNat_lt
    rw [Nat.mod_eq_of_lt few] at numbered
    exact ⟨piece.whole, by omega⟩
  · rintro ⟨fits, few⟩
    have short : index < 2 ^ 32 := Nat.lt_of_succ_lt few
    obtain ⟨packet, cut⟩ := (exists_nth_iff within).mpr ⟨fits, by rwa [Nat.mod_eq_of_lt short]⟩
    have piece := (nth_eq_ok_iff within).mp cut
    exact ⟨packet, piece, piece, short⟩

theorem exact_of_ranges_eq_ok (cut : ranges length size = .ok packets) :
    ∀ index (within : index < packets.length), Exact length size index packets[index] := by
  intro index within
  have some_size := some_size_of_ranges cut
  obtain ⟨-, few⟩ := (exists_ranges_iff some_size).mp ⟨packets, cut⟩
  obtain ⟨many, pieces⟩ := (ranges_eq_ok_iff some_size).mp cut
  exact exact_iff_piece.mpr ⟨pieces index within, by omega⟩

/-! ## Positions -/

/-- Packets of a size that cut a list into consecutive pieces, numbered from one. -/
structure Partition (length size : UInt64) (packets : List Packet) : Prop where
  many : packets.length = length.toNat ⌈/⌉ size.toNat
  numbered : ∀ index (within : index < packets.length), packets[index].id.toNat = index + 1
  start : ∀ within : 0 < packets.length, packets[0].first = 0
  next : ∀ index (within : index + 1 < packets.length),
    packets[index + 1].first.toNat = packets[index].last.toNat + 1
  stop : ∀ some : packets ≠ [], (packets.getLast some).last.toNat + 1 = length.toNat
  /-- Every packet but the last is whole. -/
  whole : ∀ index (within : index + 1 < packets.length), packets[index].rowCount = .ok size
  rest : ∀ some : packets ≠ [],
    ∃ rows, (packets.getLast some).rowCount = .ok rows ∧ 1 ≤ rows ∧ rows ≤ size
  /-- A position is in one packet, and its place tells which. -/
  covered : ∀ position < length, position.toNat / size.toNat < packets.length ∧
    ∀ index (within : index < packets.length),
      packets[index].contains position = true ↔ index = position.toNat / size.toNat
  outside : ∀ position, length ≤ position → ∀ packet ∈ packets, packet.contains position = false

/-- A packet has the positions from its start up to where the next one starts, as far as there are
any. -/
theorem Piece.contains_iff (piece : Piece length size index packet) (position : UInt64) :
    packet.contains position = true ↔
      index * size.toNat ≤ position.toNat ∧ position.toNat < (index + 1) * size.toNat ∧
        position.toNat < length.toNat := by
  have last := piece.last
  simp only [contains, Bool.and_eq_true, decide_eq_true_eq, UInt64.le_iff_toNat_le, piece.first]
  omega

theorem Piece.exists_rowCount (piece : Piece length size index packet) (within : index < count length size) :
    ∃ rows, packet.rowCount = .ok rows ∧
      rows.toNat = min ((index + 1) * size.toNat) length.toNat - index * size.toNat := by
  have bound := length.toNat_lt_size
  obtain ⟨ordered, short⟩ := piece.inside within
  obtain ⟨rows, counted, number⟩ := Word.exists_span ordered (by omega)
  exact ⟨rows, counted, by rw [number, piece.last, piece.first]⟩

/-- A packet has a position exactly if it is the one that so many whole packets lie before. -/
theorem Piece.contains_iff_eq_div (piece : Piece length size index packet)
    (within : index < count length size) {position : UInt64} (inside : position < length) :
    packet.contains position = true ↔ index = position.toNat / size.toNat := by
  have inside : position.toNat < length.toNat := UInt64.lt_iff_toNat_lt.mp inside
  rw [piece.contains_iff, eq_comm, Nat.div_eq_iff (size_pos_of_lt_count within), Nat.succ_mul]
  have positive := size_pos_of_lt_count within
  omega

/-- The last packet of a list, and its place. -/
private theorem exists_getLast_eq (some : packets ≠ []) :
    ∃ before, before + 1 = packets.length ∧
      ∃ within : before < packets.length, packets.getLast some = packets[before] := by
  have nonempty := List.length_pos_iff.mpr some
  exact ⟨packets.length - 1, Nat.sub_add_cancel nonempty, Nat.sub_lt nonempty Nat.one_pos,
    List.getLast_eq_getElem some⟩

theorem partition_of_ranges_eq_ok (cut : ranges length size = .ok packets) :
    Partition length size packets := by
  have some_size := some_size_of_ranges cut
  have positive : 0 < size.toNat := Nat.pos_of_ne_zero fun zero => some_size (UInt64.toNat_inj.mp zero)
  have exact := exact_of_ranges_eq_ok cut
  obtain ⟨many, pieces⟩ := (ranges_eq_ok_iff some_size).mp cut
  have reached := le_count_mul length positive
  constructor
  case many => simp [many, Nat.ceilDiv_eq_add_pred_div, count]
  case numbered =>
    intro index within
    rw [(exact index within).id, (exact index within).place]
  case start =>
    intro within
    rw [← UInt64.toNat_inj, (pieces 0 within).first, Nat.zero_mul]
    rfl
  case next =>
    intro index within
    have inside := mul_lt_of_lt_count (many ▸ within)
    rw [(pieces (index + 1) within).first, (pieces index (by omega)).last]
    omega
  case stop =>
    intro some
    obtain ⟨before, last, within, same⟩ := exists_getLast_eq some
    rw [same, (pieces before within).last, last, many]
    omega
  case whole =>
    intro index within
    have inside := mul_lt_of_lt_count (many ▸ within)
    obtain ⟨rows, counted, number⟩ := (pieces index (by omega)).exists_rowCount (by omega)
    rw [Nat.succ_mul] at inside number
    obtain rfl : rows = size := UInt64.toNat_inj.mp (by omega)
    exact counted
  case rest =>
    intro some
    obtain ⟨before, last, within, same⟩ := exists_getLast_eq some
    have inside := mul_lt_of_lt_count (many ▸ within)
    obtain ⟨rows, counted, number⟩ := (pieces before within).exists_rowCount (many ▸ within)
    rw [Nat.succ_mul] at number
    rw [same]
    refine ⟨rows, counted, ?_, ?_⟩ <;> rw [UInt64.le_iff_toNat_le, number]
    · rw [UInt64.toNat_one]
      omega
    · omega
  case covered =>
    intro position inside
    have short : position.toNat < length.toNat := UInt64.lt_iff_toNat_lt.mp inside
    have place : position.toNat / size.toNat < count length size :=
      Nat.div_lt_of_lt_mul (by rw [Nat.mul_comm]; omega)
    refine ⟨many ▸ place, fun index within => ?_⟩
    exact (pieces index within).contains_iff_eq_div (many ▸ within) inside
  case outside =>
    intro position beyond packet member
    obtain ⟨index, within, rfl⟩ := List.getElem_of_mem member
    have beyond : length.toNat ≤ position.toNat := UInt64.le_iff_toNat_le.mp beyond
    rw [← Bool.not_eq_true, (pieces index within).contains_iff]
    omega

theorem ne_zero_of_one_le (some_size : 1 ≤ size) : size ≠ 0 := by
  rintro rfl
  exact absurd some_size (by decide)

/-- A list whose packets can be numbered is cut into packets of the size, each position is in one of
them, and every word on the way there is exact. -/
theorem ranges_partition {length size : UInt64} (small : length.toNat ≤ 4294967295) (some_size : 1 ≤ size) :
    ∃ packets, ranges length size = .ok packets ∧ Partition length size packets ∧
      ∀ index (within : index < packets.length), Exact length size index packets[index] := by
  obtain ⟨packets, cut, -⟩ := ranges_spec (Nat.lt_succ_of_le small) (ne_zero_of_one_le some_size)
  exact ⟨packets, cut, partition_of_ranges_eq_ok cut, exact_of_ranges_eq_ok cut⟩

/-- The longest of these lists, in packets that leave the last one a single position. -/
theorem ranges_partition_longest :
    (4294967295 : UInt64).toNat ≤ 4294967295 ∧ (1 : UInt64) ≤ 4294967294 ∧
      ∃ packets, ranges 4294967295 4294967294 = .ok packets ∧
        packets = [⟨1, 0, 4294967293⟩, ⟨2, 4294967294, 4294967294⟩] ∧
        (∀ index (within : index < packets.length),
          packets[index].contains 4294967294 = true ↔ index = 1) ∧
        Exact 4294967295 4294967294 1 ⟨2, 4294967294, 4294967294⟩ := by
  have small : (4294967295 : UInt64).toNat ≤ 4294967295 := by decide
  have some_size : (1 : UInt64) ≤ 4294967294 := by decide
  obtain ⟨packets, cut, partition, exact⟩ := ranges_partition small some_size
  obtain rfl : packets = [⟨1, 0, 4294967293⟩, ⟨2, 4294967294, 4294967294⟩] :=
    Except.ok.inj (cut.symm.trans (by decide +kernel))
  exact ⟨small, some_size, _, cut, rfl, (partition.covered 4294967294 (by decide)).2, exact 1 (by decide)⟩

/-! ## Longer lists -/

/-- The packets of any list. One of them is cut in exact words if there is a word for the end that it
would have if it were whole, and a number for it. If that holds of all, the list is cut as it should be;
otherwise cutting it stops the run. -/
theorem ranges_exact_iff (length : UInt64) {size : UInt64} (some_size : 1 ≤ size) :
    (∀ index < length.toNat ⌈/⌉ size.toNat,
      (∃ packet, nth length size index = .ok packet ∧ Exact length size index packet) ↔
        (index + 1) * size.toNat < 2 ^ 64 ∧ index + 1 < 2 ^ 32) ∧
    ((length.toNat ⌈/⌉ size.toNat) * size.toNat < 2 ^ 64 ∧ length.toNat ⌈/⌉ size.toNat < 2 ^ 32 →
      ∃ packets, ranges length size = .ok packets ∧ Partition length size packets ∧
        (packets.map Packet.id).Nodup ∧
        ∀ index (within : index < packets.length), Exact length size index packets[index]) ∧
    (¬ ((length.toNat ⌈/⌉ size.toNat) * size.toNat < 2 ^ 64 ∧ length.toNat ⌈/⌉ size.toNat < 2 ^ 32) →
      ranges length size = .error .outOfBounds) := by
  have nonzero := ne_zero_of_one_le some_size
  have many : length.toNat ⌈/⌉ size.toNat = count length size := by
    simp [Nat.ceilDiv_eq_add_pred_div, count]
  rw [many]
  refine ⟨fun index within => exists_exact_iff within, fun fits => ?_, ranges_of_wide nonzero⟩
  obtain ⟨packets, cut⟩ := (exists_ranges_iff nonzero).mpr fits
  exact ⟨packets, cut, partition_of_ranges_eq_ok cut, nodup_ids cut, exact_of_ranges_eq_ok cut⟩

/-- The longest list there is, in packets whose last one ends where the words end. -/
theorem ranges_exact_iff_full :
    (1 : UInt64) ≤ 6148914691236517205 ∧
      ∃ packets, ranges 18446744073709551615 6148914691236517205 = .ok packets ∧ packets.length = 3 ∧
        Partition 18446744073709551615 6148914691236517205 packets ∧ (packets.map Packet.id).Nodup := by
  have some_size : (1 : UInt64) ≤ 6148914691236517205 := by decide
  obtain ⟨-, cuts, -⟩ := ranges_exact_iff 18446744073709551615 some_size
  obtain ⟨packets, cut, partition, distinct, -⟩ := cuts (by decide +kernel)
  exact ⟨some_size, packets, cut, partition.many.trans (by decide +kernel), partition, distinct⟩

/-- No list of 2^63 + 1 positions is cut into packets of 2^63, for want of a word for the end of a whole
second packet, and no list of 2^32 positions into packets of one, for want of a number for the last. -/
theorem ranges_overrun :
    Word.sum 9223372036854775808 9223372036854775808 = .error .outOfBounds ∧
      nth 9223372036854775809 9223372036854775808 1 = .error .outOfBounds ∧
      ranges 9223372036854775809 9223372036854775808 = .error .outOfBounds ∧
      Word.next 4294967295 = .error .outOfBounds ∧
      nth 4294967296 1 4294967295 = .error .outOfBounds ∧
      ranges 4294967296 1 = .error .outOfBounds :=
  ⟨by decide +kernel, by decide +kernel, ranges_of_wide (by decide) (by decide +kernel), by decide +kernel,
    by decide +kernel, ranges_of_wide (by decide) (by decide +kernel)⟩

end Accessibility.Packet
