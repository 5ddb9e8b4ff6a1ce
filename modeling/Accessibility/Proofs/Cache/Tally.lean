import Accessibility.Proofs.Cache.Store

/-! What a cache counts. From some cache on, lookups of distinct keys find exactly those that were
stored there to begin with; each of the others is missed once and stored after that. So the counters
and the entries tell which keys have been looked up, whatever lies between a miss and the write that
follows it. -/
namespace Accessibility.UtilityCache

variable {spec : CacheSpec} {start cache : UtilityCache} {looked looked' : List UtilityKey} {awaited : Nat}
  {key : UtilityKey}

/-- Whether nothing is stored under a key. -/
def lacks (cache : UtilityCache) (key : UtilityKey) : Bool := (cache.stored key).isNone

/-- A cache after the lookups of keys that are over, and of more that were missed and wait for their
values to be stored. -/
structure Tallied (start : UtilityCache) (looked : List UtilityKey) (awaited : Nat)
    (cache : UtilityCache) : Prop where
  laid : cache.Laid start.spec
  absent : ∀ key, cache.lacks key = true ↔ start.lacks key = true ∧ key ∉ looked
  entries : cache.entries = start.entries + looked.countP start.lacks
  hits : cache.hits = start.hits + looked.countP (! start.lacks ·)
  misses : cache.misses = start.misses + looked.countP start.lacks + awaited

theorem tallied_start (laid : start.Laid start.spec) : Tallied start [] 0 start := by
  refine ⟨laid, fun key => ?_, ?_, ?_, ?_⟩ <;> simp

/-- The order of the lookups does not matter. -/
theorem Tallied.of_perm (tallied : Tallied start looked awaited cache) (perm : looked.Perm looked') :
    Tallied start looked' awaited cache where
  laid := tallied.laid
  absent key := by rw [tallied.absent, perm.mem_iff]
  entries := by rw [tallied.entries, perm.countP_eq]
  hits := by rw [tallied.hits, perm.countP_eq]
  misses := by rw [tallied.misses, perm.countP_eq]

theorem lacks_countLookup (found : Bool) : (cache.countLookup found).lacks key = cache.lacks key := by
  rw [lacks, stored_countLookup, lacks]

/-- A key that was not looked up before is found if it was stored to begin with. -/
theorem Tallied.look (tallied : Tallied start looked awaited cache) (accepts : start.spec.Accepts key)
    (fresh : key ∉ looked) :
    (cache.get key).1 ≠ .ok none ∧ Tallied start (key :: looked) awaited (cache.get key).2 ∨
      (cache.get key).1 = .ok none ∧ start.lacks key = true ∧
        Tallied start looked (awaited + 1) (cache.get key).2 := by
  have begun : cache.lacks key = start.lacks key := by
    rw [Bool.eq_iff_iff, tallied.absent]
    exact and_iff_left fresh
  rw [get_of_accepts tallied.laid accepts]
  cases held : cache.stored key with
  | some value =>
    have known : start.lacks key = false := by rw [← begun, lacks, held]; rfl
    refine .inl ⟨by simp, laid_countLookup tallied.laid true, fun other => ?_, ?_, ?_, ?_⟩
    · rw [Option.isSome_some, lacks_countLookup, tallied.absent, List.mem_cons, not_or]
      refine and_congr_right fun lacking => (and_iff_right ?_).symm
      rintro rfl
      exact Bool.false_ne_true (known.symm.trans lacking)
    · rw [List.countP_cons, known]
      exact tallied.entries
    · rw [List.countP_cons, known]
      exact congrArg Nat.succ tallied.hits
    · rw [List.countP_cons, known]
      exact tallied.misses
  | none =>
    refine .inr ⟨rfl, by rw [← begun, lacks, held]; rfl, laid_countLookup tallied.laid false,
      fun other => ?_, tallied.entries, tallied.hits, congrArg Nat.succ tallied.misses⟩
    rw [Option.isSome_none, lacks_countLookup, tallied.absent]

/-- The value of a key that was missed is stored. -/
theorem Tallied.store (tallied : Tallied start looked (awaited + 1) cache)
    (valid : start.spec.validate = .ok ()) (accepts : start.spec.Accepts key) (fresh : key ∉ looked)
    (lacking : start.lacks key = true) (value : Utilities) :
    Tallied start (key :: looked) awaited (cache.put key value).2 := by
  have free : cache.stored key = none := by
    have free := (tallied.absent key).mpr ⟨lacking, fresh⟩
    simpa [lacks] using free
  obtain ⟨paths, frame⟩ := put_frame cache key value
  refine ⟨laid_put tallied.laid key value, fun other => ?_, ?_, ?_, ?_⟩
  · rw [lacks, stored_put valid tallied.laid accepts]
    by_cases same : other = key
    · simp [same]
    · rw [if_neg same, List.mem_cons, not_or]
      refine (tallied.absent other).trans ?_
      simp [same]
  · rw [entries_put tallied.laid accepts, free, tallied.entries, List.countP_cons, lacking]
    simp [Nat.add_assoc]
  · rw [frame, List.countP_cons, lacking]
    exact tallied.hits
  · rw [frame, List.countP_cons, lacking]
    have misses := tallied.misses
    simp only [↓reduceIte]
    omega

/-- A cache that holds some keys and no others, after one lookup of each that missed it and a number
of rounds of lookups that found them. -/
structure Filled (spec : CacheSpec) (keys : List UtilityKey) (rounds : Nat) (cache : UtilityCache) :
    Prop where
  laid : cache.Laid spec
  absent : ∀ key, cache.lacks key = true ↔ key ∉ keys
  stats : cache.stats = ⟨keys.length, rounds * keys.length, keys.length⟩

/-- The first lookups of keys fill an empty cache. -/
theorem Tallied.filled (tallied : Tallied (.empty spec) looked 0 cache) : cache.Filled spec looked 0 := by
  have lacking : ∀ key, (empty spec).lacks key = true := fun key => by rw [lacks, stored_empty]; rfl
  have missed : looked.countP (empty spec).lacks = looked.length :=
    List.countP_eq_length.mpr fun key _ => lacking key
  have found : looked.countP (! (empty spec).lacks ·) = 0 :=
    List.countP_eq_zero.mpr fun key _ => by simp [lacking]
  refine ⟨tallied.laid, fun key => (tallied.absent key).trans (and_iff_right (lacking key)), ?_⟩
  rw [stats, tallied.entries, tallied.hits, tallied.misses, missed, found, entries_empty]
  simp [empty]

/-- Further lookups of its keys find them all. -/
theorem Filled.tallied {rounds : Nat} (filled : start.Filled spec looked rounds)
    (tallied : Tallied start looked 0 cache) : cache.Filled spec looked (rounds + 1) := by
  have held : ∀ key ∈ looked, start.lacks key = false := fun key member => by
    rw [← Bool.not_eq_true, filled.absent]
    exact not_not_intro member
  have missed : looked.countP start.lacks = 0 :=
    List.countP_eq_zero.mpr fun key member => by simp [held key member]
  have found : looked.countP (! start.lacks ·) = looked.length :=
    List.countP_eq_length.mpr fun key member => by simp [held key member]
  obtain ⟨entries, hits, misses⟩ := CacheStats.mk.inj filled.stats
  have laid := tallied.laid
  rw [filled.laid.dimensions] at laid
  refine ⟨laid, fun key => ?_, ?_⟩
  · rw [tallied.absent, filled.absent]
    exact and_self_iff
  · rw [UtilityCache.stats, tallied.entries, tallied.hits, tallied.misses, missed, found, entries, hits,
      misses, Nat.succ_mul]
    rfl

end Accessibility.UtilityCache
