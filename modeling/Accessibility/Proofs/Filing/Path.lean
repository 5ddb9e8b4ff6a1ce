import Accessibility.Filing.Tree
import Mathlib.Data.List.TakeWhile

/-! Where a path leads by its names alone. Empty pieces and lone points lead nowhere, two
points lead back, every other name leads on; a tree is not looked at. The parts of a path
split its names: those before the last one lead to its parent, and another extension
changes the last one only. -/
namespace Accessibility.Path

/-! ## Names -/

theorem piecesOf_ne_nil (cs : List Char) : piecesOf cs ≠ [] := by
  cases cs with
  | nil => simp [piecesOf]
  | cons c cs =>
    simp only [piecesOf]
    split
    · simp
    · split <;> simp

theorem piecesOf_append_slash (front back : List Char) :
    piecesOf (front ++ '/' :: back) = piecesOf front ++ piecesOf back := by
  induction front with
  | nil => simp [piecesOf]
  | cons c front ih =>
    by_cases slash : c = '/'
    · simp [piecesOf, slash, ih]
    · simp only [List.cons_append, piecesOf, slash, if_false, ih]
      cases found : piecesOf front with
      | nil => exact absurd found (piecesOf_ne_nil front)
      | cons piece others => rfl

theorem piecesOf_plain {cs : List Char} (plain : '/' ∉ cs) : piecesOf cs = [cs] := by
  induction cs with
  | nil => rfl
  | cons c cs ih =>
    obtain ⟨slash, plain⟩ := not_or.mp (mt List.mem_cons.mpr plain)
    simp [piecesOf, Ne.symm slash, ih plain]

/-- The pieces that lead somewhere. -/
def namesIn (pieces : List String) : List String :=
  pieces.filter fun piece => piece ≠ "" ∧ piece ≠ "."

/-- The names between the slashes of a text. -/
def namesOf (cs : List Char) : List String := namesIn ((piecesOf cs).map String.ofList)

/-- The names of a path. -/
def names (path : Path) : List String := namesIn path.pieces

theorem names_eq (path : Path) : path.names = namesOf path.text.toList := rfl

theorem names_ofList (cs : List Char) : names ⟨String.ofList cs⟩ = namesOf cs := by
  simp [names_eq]

@[simp] theorem namesOf_nil : namesOf [] = [] := by decide

@[simp] theorem namesOf_point : namesOf ['.'] = [] := by decide

theorem namesOf_append_slash (front back : List Char) :
    namesOf (front ++ '/' :: back) = namesOf front ++ namesOf back := by
  simp [namesOf, namesIn, piecesOf_append_slash]

@[simp] theorem namesOf_slash (back : List Char) : namesOf ('/' :: back) = namesOf back :=
  namesOf_append_slash [] back

theorem namesOf_plain {cs : List Char} (plain : '/' ∉ cs) (named : cs ≠ []) (pointless : cs ≠ ['.']) :
    namesOf cs = [String.ofList cs] := by
  have named : String.ofList cs ≠ "" := fun same => named (String.ofList_injective same)
  have pointless : String.ofList cs ≠ "." := fun same => pointless (String.ofList_injective same)
  simp [namesOf, namesIn, piecesOf_plain plain, named, pointless]

/-! ## Places -/

/-- The place that a name leads to from another place. -/
def follow (place : List String) (name : String) : List String :=
  if name = ".." then place.dropLast else place ++ [name]

/-- The place that a path leads to by its names. -/
def place (path : Path) : List String := path.names.foldl follow []

theorem foldl_follow {names : List String} (forward : ".." ∉ names) (place : List String) :
    names.foldl follow place = place ++ names := by
  induction names generalizing place with
  | nil => simp
  | cons name names ih =>
    obtain ⟨onward, forward⟩ := not_or.mp (mt List.mem_cons.mpr forward)
    simp [follow, Ne.symm onward, ih forward]

theorem place_eq_names {path : Path} (forward : ".." ∉ path.names) : path.place = path.names := by
  simpa [place] using foldl_follow forward []

/-! ## Parts -/

/-- What comes off a reversed text changes none of its names. -/
theorem namesOf_withoutIdle (cs : List Char) :
    namesOf (withoutIdle cs).reverse = namesOf cs.reverse := by
  fun_induction withoutIdle cs with
  | case1 rest ih => simpa [namesOf_append_slash] using ih
  | case2 => simp
  | case3 rest ih => simpa [namesOf_append_slash] using ih
  | case4 => rfl

theorem withoutIdle_ne_point (cs : List Char) : withoutIdle cs ≠ ['.'] := by
  fun_induction withoutIdle cs with
  | case1 rest ih => exact ih
  | case2 => simp
  | case3 rest ih => exact ih
  | case4 cs _ pointless _ => exact pointless

theorem withoutIdle_ne_point_slash (cs rest : List Char) : withoutIdle cs ≠ '.' :: '/' :: rest := by
  fun_induction withoutIdle cs with
  | case1 _ ih => exact ih
  | case2 => simp
  | case3 _ ih => exact ih
  | case4 cs _ _ further => exact further rest

theorem withoutIdle_ne_slash (cs rest : List Char) : withoutIdle cs ≠ '/' :: rest := by
  fun_induction withoutIdle cs with
  | case1 _ ih => exact ih
  | case2 => simp
  | case3 _ ih => exact ih
  | case4 cs slashless _ _ => exact slashless rest

theorem withoutIdle_cases (cs : List Char) :
    withoutIdle cs = cs ∨ (∃ rest, cs = '/' :: rest) ∨ cs = ['.'] ∨ ∃ rest, cs = '.' :: '/' :: rest := by
  unfold withoutIdle
  split <;> simp

theorem withoutIdle_suffix (cs : List Char) : withoutIdle cs <:+ cs := by
  fun_induction withoutIdle cs with
  | case1 rest ih => exact ih.trans (List.suffix_cons ..)
  | case2 => exact List.nil_suffix
  | case3 rest ih => exact ih.trans ((List.suffix_cons ..).trans (List.suffix_cons ..))
  | case4 => exact List.suffix_refl _

theorem leadOf_append_drop (cs : List Char) : leadOf cs ++ cs.drop (leadOf cs).length = cs := by
  unfold leadOf
  split <;> simp

/-- Behind a lone point at the start stands a slash, if anything. -/
theorem drop_leadOf_point {cs : List Char} (point : leadOf cs = ['.']) :
    cs.drop (leadOf cs).length = [] ∨ ∃ rest, cs.drop (leadOf cs).length = '/' :: rest := by
  revert point
  unfold leadOf
  split <;> simp

theorem leadOf_cases (cs : List Char) : leadOf cs = [] ∨ leadOf cs = ['/'] ∨ leadOf cs = ['.'] := by
  unfold leadOf
  split <;> simp

/-- How the parts of a path make it up. -/
structure Parted (path : Path) (lead before name : List Char) : Prop where
  lead_cases : lead = [] ∨ lead = ['/'] ∨ lead = ['.']
  behind_point : lead = ['.'] → before = [] ∧ name = [] ∨ ∃ rest, before = '/' :: rest
  before_cases : before = [] ∨ ∃ front, before = front ++ ['/']
  nameless : name = [] → before = []
  plain : '/' ∉ name
  pointless : name ≠ ['.']
  names_eq : path.names = namesOf (before ++ name)

theorem namesOf_lead {lead text : List Char} (cases : lead = [] ∨ lead = ['/'] ∨ lead = ['.'])
    (behind : lead = ['.'] → text = [] ∨ ∃ rest, text = '/' :: rest) :
    namesOf (lead ++ text) = namesOf text := by
  rcases cases with rfl | rfl | rfl
  · rfl
  · simp
  · rcases behind rfl with rfl | ⟨rest, rfl⟩
    · simp
    · simpa using namesOf_append_slash ['.'] rest

theorem dropWhile_slash (body : List Char) :
    body.dropWhile (· ≠ '/') = [] ∨ ∃ rest, body.dropWhile (· ≠ '/') = '/' :: rest := by
  have first := List.head?_dropWhile_not (· ≠ '/') body
  generalize body.dropWhile (· ≠ '/') = left at first ⊢
  cases left with
  | nil => exact .inl rfl
  | cons c rest =>
    obtain rfl : c = '/' := by simpa using first
    exact .inr ⟨rest, rfl⟩

theorem behind_of_front {before name text : List Char} (front : before ++ name <+: text)
    (plain : '/' ∉ name) (behind : text = [] ∨ ∃ rest, text = '/' :: rest) :
    before = [] ∧ name = [] ∨ ∃ rest, before = '/' :: rest := by
  rcases behind with rfl | ⟨rest, rfl⟩
  · exact .inl (List.append_eq_nil_iff.mp (List.prefix_nil.mp front))
  · rcases List.prefix_cons_iff.mp front with nothing | ⟨tail, first, _⟩
    · exact .inl (List.append_eq_nil_iff.mp nothing)
    · rcases List.append_eq_cons_iff.mp first with ⟨_, first⟩ | ⟨tail, first, _⟩
      · rw [first] at plain
        exact absurd List.mem_cons_self plain
      · exact .inr ⟨tail, first⟩

theorem parted {path : Path} {lead before name : List Char}
    (split : path.parts = (lead, before, name)) : Parted path lead before name := by
  obtain ⟨rfl, rfl, rfl⟩ : _ ∧ _ ∧ _ := by simpa only [parts, Prod.mk.injEq] using split
  generalize text : path.text.toList = cs
  generalize rest_eq : cs.drop (leadOf cs).length = rest
  generalize body_eq : withoutIdle rest.reverse = body
  have whole : (body.dropWhile (· ≠ '/')).reverse ++ (body.takeWhile (· ≠ '/')).reverse =
      body.reverse := by
    rw [← List.reverse_append, List.takeWhile_append_dropWhile]
  have plain : '/' ∉ (body.takeWhile (· ≠ '/')).reverse := by
    intro slash
    simpa using List.mem_takeWhile_imp (List.mem_reverse.mp slash)
  have body_split := @List.takeWhile_append_dropWhile _ (· ≠ '/') body
  refine ⟨leadOf_cases cs, ?behind, ?before, ?nameless, plain, ?pointless, ?names⟩
  case behind =>
    intro point
    have front : body.reverse <+: rest := by
      have kept := withoutIdle_suffix rest.reverse
      rw [body_eq] at kept
      simpa using List.reverse_prefix.mpr kept
    have behind := drop_leadOf_point point
    rw [rest_eq] at behind
    exact behind_of_front (whole ▸ front) plain behind
  case before =>
    rcases dropWhile_slash body with nothing | ⟨left, first⟩
    · exact .inl (by rw [nothing, List.reverse_nil])
    · exact .inr ⟨left.reverse, by rw [first, List.reverse_cons]⟩
  case nameless =>
    intro nothing
    have name_eq : body.takeWhile (· ≠ '/') = [] := List.reverse_eq_nil_iff.mp nothing
    rcases dropWhile_slash body with nothing | ⟨left, first⟩
    · rw [nothing, List.reverse_nil]
    · rw [name_eq, first] at body_split
      exact absurd (body_eq.trans body_split.symm) (withoutIdle_ne_slash _ left)
  case pointless =>
    intro point
    have name_eq : body.takeWhile (· ≠ '/') = ['.'] := List.reverse_eq_cons_iff.mp point
    rcases dropWhile_slash body with nothing | ⟨left, first⟩
    · rw [name_eq, nothing] at body_split
      exact withoutIdle_ne_point _ (body_eq.trans body_split.symm)
    · rw [name_eq, first] at body_split
      exact withoutIdle_ne_point_slash _ left (body_eq.trans body_split.symm)
  case names =>
    rw [whole, ← body_eq, namesOf_withoutIdle, List.reverse_reverse, ← rest_eq, names_eq, text,
      ← namesOf_lead (leadOf_cases cs) fun point => drop_leadOf_point point, leadOf_append_drop]

/-- The part before the last name has names of its own. -/
theorem Parted.namesOf_before {path : Path} {lead before name : List Char}
    (parted : Parted path lead before name) (last : List Char) :
    namesOf (before ++ last) = namesOf before ++ namesOf last := by
  rcases parted.before_cases with rfl | ⟨front, rfl⟩
  · simp
  · simp [namesOf_append_slash]

theorem Parted.names_eq_append {path : Path} {lead before name : List Char}
    (parted : Parted path lead before name) (named : name ≠ []) :
    path.names = namesOf before ++ [String.ofList name] := by
  rw [parted.names_eq, parted.namesOf_before, namesOf_plain parted.plain named parted.pointless]

/-! ## Parents -/

/-- A path has the names of its parent and at most one more. -/
theorem names_of_parent {path parent : Path} (found : path.parent? = some parent) :
    path.names = [] ∧ parent = ⟨""⟩ ∨ ∃ name, path.names = parent.names ++ [name] := by
  rcases split : path.parts with ⟨lead, before, name⟩
  have parted := parted split
  simp only [parent?, split] at found
  by_cases nameless : name = []
  · have frontless := parted.nameless nameless
    by_cases point : lead = ['.']
    · left
      refine ⟨by rw [parted.names_eq, nameless, frontless]; simp, ?_⟩
      simpa [nameless, point] using found.symm
    · simp [nameless, point] at found
  · right
    refine ⟨String.ofList name, ?_⟩
    obtain rfl : ⟨String.ofList (lead ++ (withoutIdle before.reverse).reverse)⟩ = parent := by
      simpa [nameless] using found
    rw [parted.names_eq_append nameless, names_ofList, namesOf_lead parted.lead_cases,
      namesOf_withoutIdle, List.reverse_reverse]
    intro point
    have front : (withoutIdle before.reverse).reverse ++ [] <+: before := by
      simpa using List.reverse_prefix.mpr (withoutIdle_suffix before.reverse)
    have behind : before = [] ∨ ∃ rest, before = '/' :: rest :=
      (parted.behind_point point).imp_left And.left
    exact (behind_of_front front (by simp) behind).imp_left And.left

theorem names_prefix_of_parent {path parent : Path} (found : path.parent? = some parent) :
    parent.names <+: path.names := by
  rcases names_of_parent found with ⟨_, rfl⟩ | ⟨name, longer⟩
  · simp [names_eq]
  · exact longer ▸ List.prefix_append ..

theorem names_prefix_of_mem_ancestorsWithin {bound : Nat} {path ancestor : Path}
    (above : ancestor ∈ ancestorsWithin bound path) : ancestor.names <+: path.names := by
  induction bound generalizing path with
  | zero => exact List.mem_singleton.mp above ▸ List.prefix_refl _
  | succ bound ih =>
    simp only [ancestorsWithin] at above
    cases found : path.parent? with
    | none =>
      rw [found] at above
      exact List.mem_singleton.mp above ▸ List.prefix_refl _
    | some parent =>
      rw [found] at above
      rcases List.mem_cons.mp above with rfl | above
      · exact List.prefix_refl _
      · exact (ih above).trans (names_prefix_of_parent found)

/-- No directory that a path's parent lies in, and not the parent itself, is where the path
leads, unless that is back. -/
theorem place_ne_of_mem_ancestors {path parent ancestor : Path} (found : path.parent? = some parent)
    (above : ancestor ∈ parent.ancestors) (forward : ".." ∉ path.names) (named : path.names ≠ []) :
    ancestor.place ≠ path.place := by
  have shorter := names_prefix_of_mem_ancestorsWithin above
  rcases names_of_parent found with ⟨nameless, _⟩ | ⟨name, longer⟩
  · exact absurd nameless named
  · have within : ∀ name ∈ ancestor.names, name ∈ path.names := by
      intro name mem
      rw [longer]
      exact List.mem_append_left _ (shorter.subset mem)
    rw [place_eq_names forward, place_eq_names fun back => forward (within _ back)]
    intro same
    have bound := shorter.length_le
    rw [same, longer, List.length_append] at bound
    exact Nat.not_succ_le_self _ bound

/-! ## Extensions -/

theorem mem_of_mem_stemOf {name : List Char} {c : Char} (mem : c ∈ stemOf name) : c ∈ name := by
  simp only [stemOf] at mem
  split at mem
  · split at mem
    · exact mem
    · exact List.mem_reverse.mp ((List.dropWhile_sublist _).subset
        (List.mem_of_mem_drop (List.mem_reverse.mp mem)))
  · exact mem

theorem stemOf_ne_nil {name : List Char} (named : name ≠ []) : stemOf name ≠ [] := by
  simp only [stemOf]
  split
  · split
    · exact named
    · rename_i stem
      exact fun nothing => stem (by rw [nothing]; rfl)
  · exact named

theorem Parted.namesOf_last {path : Path} {lead before name last : List Char}
    (parted : Parted path lead before name) (named : name ≠ []) (plain : '/' ∉ last)
    (lasting : last ≠ []) (pointless : last ≠ ['.']) :
    namesOf (lead ++ (before ++ last)) = namesOf before ++ [String.ofList last] := by
  rw [namesOf_lead parted.lead_cases, parted.namesOf_before, namesOf_plain plain lasting pointless]
  intro point
  rcases parted.behind_point point with ⟨_, nameless⟩ | ⟨rest, rfl⟩
  · exact absurd nameless named
  · exact .inr ⟨rest ++ last, rfl⟩

theorem withoutSlashes_of_append {path : Path} {front : List Char}
    (text : path.text.toList = front ++ ['/']) : FileTree.withoutSlashes path ≠ path := by
  intro unslashed
  have same := congrArg (fun path => path.text.toList) unslashed
  simp only [FileTree.withoutSlashes, text, List.reverse_append, List.reverse_singleton,
    List.singleton_append, String.toList_ofList] at same
  have shorter := congrArg List.length same
  have bound := (@List.dropWhile_sublist _ front.reverse (· = '/')).length_le
  simp at shorter bound
  omega

theorem endsInPoints_of_append {path : Path} {front : List Char}
    (unslashed : FileTree.withoutSlashes path = path)
    (text : path.text.toList = front ++ ['/', '.']) : FileTree.endsInPoints path = true := by
  simp [FileTree.endsInPoints, unslashed, pieces, text, piecesOf_append_slash, piecesOf]

/-- A path that ends neither in slashes nor in points has no text behind its last name. -/
theorem text_eq_of_unslashed {path : Path} {lead before name : List Char}
    (split : path.parts = (lead, before, name)) (unslashed : FileTree.withoutSlashes path = path)
    (pointless : FileTree.endsInPoints path = false) :
    path.text.toList = lead ++ (before ++ name) := by
  obtain ⟨rfl, rfl, rfl⟩ : _ ∧ _ ∧ _ := by simpa only [parts, Prod.mk.injEq] using split
  rw [← List.reverse_append, List.takeWhile_append_dropWhile]
  have whole := leadOf_append_drop path.text.toList
  have behind := @drop_leadOf_point path.text.toList
  generalize path.text.toList.drop (leadOf path.text.toList).length = rest at whole behind ⊢
  rcases withoutIdle_cases rest.reverse with kept | ⟨back, slash⟩ | point | ⟨back, point⟩
  · rw [kept, List.reverse_reverse, whole]
  · rw [List.reverse_eq_cons_iff.mp slash, ← List.append_assoc] at whole
    exact absurd unslashed (withoutSlashes_of_append whole.symm)
  · obtain rfl : rest = ['.'] := List.reverse_eq_cons_iff.mp point
    rcases leadOf_cases path.text.toList with none | slash | point
    · rw [none] at whole
      rw [← whole] at none
      exact absurd none (by decide)
    · rw [slash] at whole
      have ends := @endsInPoints_of_append path [] unslashed whole.symm
      simp [pointless] at ends
    · exact absurd (behind point) (by simp)
  · have text : rest = back.reverse ++ ['/', '.'] := by
      rw [← List.reverse_reverse rest, point]
      simp
    rw [text, ← List.append_assoc] at whole
    simp [endsInPoints_of_append unslashed whole.symm] at pointless

theorem withExtension_cases {path : Path} {lead before name : List Char}
    (split : path.parts = (lead, before, name)) (extension : String) :
    path.withExtension extension = path ∨ name ≠ [] ∧ name ≠ ['.', '.'] ∧
      (path.withExtension extension = ⟨String.ofList (lead ++ (before ++ ['.', '.']))⟩ ∨
        path.withExtension extension =
          ⟨String.ofList (lead ++ (before ++ (stemOf name ++ '.' :: extension.toList)))⟩) := by
  simp only [withExtension, split]
  by_cases named : name = [] ∨ name = ['.', '.']
  · left
    rcases named with rfl | rfl <;> simp
  · obtain ⟨named, onward⟩ := not_or.mp named
    refine .inr ⟨named, onward, ?_⟩
    rw [if_neg (by simp [named, onward])]
    split
    · left
      rw [List.append_assoc]
    · right
      congr 1
      apply String.toList_injective
      simp

/-- A path that ends in a name and another extension for it lead to two places. -/
theorem place_withExtension_ne {path : Path} {extension : String}
    (plain : '/' ∉ extension.toList) (extended : extension ≠ "")
    (unslashed : FileTree.withoutSlashes path = path)
    (pointless : FileTree.endsInPoints path = false) (differs : path.withExtension extension ≠ path) :
    (path.withExtension extension).place ≠ path.place := by
  rcases split : path.parts with ⟨lead, before, name⟩
  have parted := parted split
  have text := text_eq_of_unslashed split unslashed pointless
  rcases withExtension_cases split extension with kept | ⟨named, onward, cases⟩
  · exact absurd kept differs
  have onward : String.ofList name ≠ ".." := fun same => onward (String.ofList_injective same)
  have last : path.place = (namesOf before).foldl follow [] ++ [String.ofList name] := by
    simp [place, parted.names_eq_append named, follow, onward]
  rw [last]
  intro same
  rcases cases with points | longer
  · rw [points, place, names_ofList, parted.namesOf_last named (by decide) (by decide) (by decide),
      List.foldl_append] at same
    have shorter := congrArg List.length same
    simp [follow] at shorter
  · have extended : extension.toList ≠ [] := fun nothing => extended (String.toList_eq_nil_iff.mp nothing)
    have lasting := stemOf_ne_nil named
    have plain : '/' ∉ stemOf name ++ '.' :: extension.toList := by
      simp only [List.mem_append, List.mem_cons, not_or]
      exact ⟨fun slash => parted.plain (mem_of_mem_stemOf slash), by decide, plain⟩
    have long : 2 < (stemOf name ++ '.' :: extension.toList).length := by
      have lasting := List.length_pos_iff.mpr lasting
      have extended := List.length_pos_iff.mpr extended
      simp only [List.length_append, List.length_cons]
      omega
    generalize stemOf name ++ '.' :: extension.toList = ending at plain long longer
    have back : String.ofList ending ≠ ".." := by
      intro same
      obtain rfl : ending = ['.', '.'] := String.ofList_injective same
      exact absurd long (by decide)
    have names : namesOf (lead ++ (before ++ ending)) = namesOf before ++ [String.ofList ending] := by
      apply parted.namesOf_last named plain <;> rintro rfl <;> exact absurd long (by decide)
    rw [longer, place, names_ofList, names, List.foldl_append, List.foldl_cons, List.foldl_nil,
      follow, if_neg back] at same
    obtain rfl : ending = name :=
      String.ofList_injective (List.singleton_inj.mp (List.append_cancel_left same))
    apply differs
    rw [longer, ← text, String.ofList_toList]

end Accessibility.Path
