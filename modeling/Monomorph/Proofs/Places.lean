import Mathlib.Data.List.Basic
import Monomorph.Disk

/-!
# Paths and places

A path names a place by its text alone: the names in it are followed from the root or from the
current directory, and two dots go one name back. A file tree that leads a path somewhere leads it
to the place that it names (`FileTree.follow_place`); whether it leads there at all is another
matter. So what an operation changes can be said in terms of places, and what stands at every other
place is what stood there before.
-/

namespace Monomorph

/-! ## Pieces of text -/

namespace Text

theorem splitOnByte_ne_nil (sep : UInt8) (t : Text) : splitOnByte sep t ≠ [] := by
  cases t with
  | nil => simp [splitOnByte]
  | cons b t =>
      rw [splitOnByte]
      split
      · simp
      · split <;> simp

theorem splitOnByte_cons {sep b : UInt8} {t p : Text} {ps : List Text}
    (h : splitOnByte sep t = p :: ps) :
    splitOnByte sep (b :: t) = if b = sep then [] :: p :: ps else (b :: p) :: ps := by
  rw [splitOnByte, h]

theorem splitOnByte_append (sep : UInt8) (l r : Text) :
    splitOnByte sep (l ++ sep :: r) = splitOnByte sep l ++ splitOnByte sep r := by
  induction l with
  | nil =>
      cases hr : splitOnByte sep r with
      | nil => exact absurd hr (splitOnByte_ne_nil sep r)
      | cons p ps => simp [splitOnByte_cons hr, splitOnByte]
  | cons b l ih =>
      cases hl : splitOnByte sep l with
      | nil => exact absurd hl (splitOnByte_ne_nil sep l)
      | cons p ps =>
          rw [hl, List.cons_append] at ih
          rw [List.cons_append, splitOnByte_cons ih, splitOnByte_cons hl]
          split <;> rfl

theorem splitOnByte_of_not_mem {sep : UInt8} : ∀ {t : Text}, sep ∉ t → splitOnByte sep t = [t]
  | [], _ => rfl
  | b :: t, h => by
      rw [List.mem_cons, not_or] at h
      rw [splitOnByte, splitOnByte_of_not_mem h.2]
      exact if_neg (Ne.symm h.1)

theorem not_mem_of_mem_splitOnByte {sep : UInt8} : ∀ {t p : Text}, p ∈ splitOnByte sep t → sep ∉ p
  | [], p, h => by
      rw [List.mem_singleton.mp h]
      exact List.not_mem_nil
  | b :: t, p, h => by
      rw [splitOnByte] at h
      split at h
      · rename_i hnil
        exact absurd hnil (splitOnByte_ne_nil sep t)
      · rename_i q qs hsplit
        have hrest : ∀ x ∈ q :: qs, sep ∉ x :=
          fun x hx => not_mem_of_mem_splitOnByte (hsplit ▸ hx)
        split at h
        · rcases List.mem_cons.mp h with rfl | h
          · exact List.not_mem_nil
          · exact hrest p h
        · rename_i hb
          rcases List.mem_cons.mp h with rfl | h
          · rw [List.mem_cons, not_or]
            exact ⟨Ne.symm hb, hrest q (List.mem_cons_self ..)⟩
          · exact hrest p (List.mem_cons_of_mem _ h)

end Text

/-! ## Names of paths -/

namespace Path

/-- A name that is neither empty nor cut by a slash. -/
def Whole (n : Text) : Prop := n ≠ [] ∧ slash ∉ n

/-- A name of a node: neither the directory itself nor the enclosing one. -/
structure Proper (n : Text) : Prop where
  whole : Whole n
  not_here : n ≠ here
  not_up : n ≠ up

theorem whole_of_mem_names {p n : Text} (h : n ∈ names p) : Whole n := by
  obtain ⟨hsplit, hne⟩ := List.mem_filter.mp h
  exact ⟨by simpa using hne, Text.not_mem_of_mem_splitOnByte hsplit⟩

theorem names_append (l r : Text) : names (l ++ slash :: r) = names l ++ names r := by
  rw [names, Text.splitOnByte_append, List.filter_append]
  rfl

theorem names_whole {n : Text} (h : Whole n) : names n = [n] := by
  rw [names, Text.splitOnByte_of_not_mem h.2]
  simpa using h.1

theorem slash_eq : Text.ofString "/" = [slash] := by decide

theorem names_join {ns : List Text} (h : ∀ n ∈ ns, Whole n) : names (Text.join "/" ns) = ns := by
  induction ns with
  | nil => rfl
  | cons n ns ih =>
      obtain ⟨hn, hns⟩ := List.forall_mem_cons.mp h
      cases ns with
      | nil => exact names_whole hn
      | cons m ns =>
          have hjoin : Text.join "/" (n :: m :: ns) = n ++ slash :: Text.join "/" (m :: ns) := by
            simp [Text.join, slash_eq]
          rw [hjoin, names_append, ih hns, names_whole hn]
          rfl

/-- The names that cleaning leaves, last first. -/
def cleaned (p : Text) : List Text := (names p).foldl (cleanStep (isAbsolute p)) []

theorem clean_eq (p : Text) :
    clean p = if isAbsolute p then "/" ++ Text.join "/" (cleaned p).reverse
      else if Text.join "/" (cleaned p).reverse = [] then here
      else Text.join "/" (cleaned p).reverse := rfl

theorem whole_of_mem_cleaned {p n : Text} (h : n ∈ cleaned p) : Whole n := by
  have hall : ∀ n ∈ cleaned p, Whole n := by
    refine List.foldlRecOn (motive := fun before => ∀ n ∈ before, Whole n) _ _ (by simp) ?_
    intro before hbefore n hn
    have hwhole := whole_of_mem_names hn
    unfold cleanStep
    split
    · exact hbefore
    · split
      · split
        · split
          · simp
          · simpa using hwhole
        · rename_i last rest
          obtain ⟨-, hrest⟩ := List.forall_mem_cons.mp hbefore
          split
          · exact List.forall_mem_cons.mpr ⟨hwhole, hbefore⟩
          · exact hrest
      · exact List.forall_mem_cons.mpr ⟨hwhole, hbefore⟩
  exact hall n h

/-- The names of a clean path; one that leads nowhere is the directory itself. -/
theorem names_clean (p : Text) (h : cleaned p ≠ []) : names (clean p) = (cleaned p).reverse := by
  have hwhole : ∀ n ∈ (cleaned p).reverse, Whole n :=
    fun n hn => whole_of_mem_cleaned (List.mem_reverse.mp hn)
  have hbody : names (Text.join "/" (cleaned p).reverse) = (cleaned p).reverse := names_join hwhole
  rw [clean_eq]
  split
  · rw [slash_eq]
    exact (names_append [] _).trans hbody
  · split
    · rename_i hnil
      rw [hnil] at hbody
      exact absurd (List.reverse_eq_nil_iff.mp hbody.symm) h
    · exact hbody

theorem isAbsolute_clean (p : Text) : isAbsolute (clean p) = isAbsolute p := by
  have hhead : ∀ ns : List Text, (∀ n ∈ ns, Whole n) →
      isAbsolute (Text.join "/" ns) = false := by
    intro ns hns
    cases ns with
    | nil => rfl
    | cons n ns =>
        obtain ⟨hne, hslash⟩ := hns n (List.mem_cons_self ..)
        cases n with
        | nil => exact absurd rfl hne
        | cons b n =>
            have hb : b ≠ slash := fun h => hslash (h ▸ List.mem_cons_self ..)
            cases ns <;> simp [Text.join, isAbsolute, hb]
  cases habs : isAbsolute p with
  | true =>
      rw [clean_eq, habs, slash_eq]
      rfl
  | false =>
      rw [clean_eq, habs]
      simp only [Bool.false_eq_true, if_false]
      split
      · rfl
      · exact hhead _ fun n hn => whole_of_mem_cleaned (List.mem_reverse.mp hn)

/-! ## The place of a path -/

/-- Goes from a place to a name. -/
def enter (p : Place) (name : Text) : Place :=
  if name = here then p else if name = up then p.dropLast else p ++ [name]

/-- The place that a path names, seen from a current directory. Nothing is looked up. -/
def place (cwd : Place) (path : Text) : Place :=
  (names path).foldl enter (if isAbsolute path then [] else cwd)

theorem enter_proper {n : Text} (h : Proper n) (p : Place) : enter p n = p ++ [n] := by
  rw [enter, if_neg h.not_here, if_neg h.not_up]

/-- The last name of a path is the last name of its place. -/
theorem place_last {cwd : Place} {path n : Text} {ns : List Text} (h : names path = ns ++ [n])
    (hn : Proper n) :
    place cwd path = ns.foldl enter (if isAbsolute path then [] else cwd) ++ [n] := by
  rw [place, h, List.foldl_append, List.foldl_cons, List.foldl_nil, enter_proper hn]

/-- The names of a file in a directory. -/
theorem names_inside (dir : Text) {n : Text} (hn : Proper n) :
    names (Disk.inside dir n) = names dir ++ [n] := by
  rw [Disk.inside, ← names_whole hn.whole]
  split
  · rename_i hlast
    obtain ⟨l, rfl⟩ := List.getLast?_eq_some_iff.mp hlast
    rw [List.append_assoc, List.singleton_append, names_append, names_append]
    simp [names, Text.splitOnByte]
  · rw [slash_eq, List.append_assoc, List.singleton_append, names_append]

theorem isAbsolute_inside {dir : Text} (hdir : dir ≠ []) (n : Text) :
    isAbsolute (Disk.inside dir n) = isAbsolute dir := by
  cases dir with
  | nil => exact absurd rfl hdir
  | cons b dir =>
      unfold Disk.inside
      split <;> rfl

theorem place_inside {cwd : Place} {dir n : Text} (hdir : dir ≠ []) (hn : Proper n) :
    place cwd (Disk.inside dir n) = place cwd dir ++ [n] := by
  rw [place_last (names_inside dir hn) hn, isAbsolute_inside hdir, place]

/-! ## Clean paths name the same places -/

/-- One step of cleaning does to the place what the name does. Above the root there is nothing, so
there a name for the parent may be dropped. -/
theorem foldl_enter_cleanStep {rooted : Bool} {start : Place} (hstart : rooted = true → start = [])
    {before : List Text} (hbefore : here ∉ before) (name : Text) :
    (cleanStep rooted before name).reverse.foldl enter start
      = enter (before.reverse.foldl enter start) name := by
  unfold cleanStep
  by_cases hhere : name = here
  · rw [if_pos hhere, enter, if_pos hhere]
  · rw [if_neg hhere]
    by_cases hup : name = up
    · rw [if_pos hup]
      cases before with
      | nil =>
          by_cases hroot : rooted = true
          · rw [if_pos hroot, hstart hroot, enter, if_neg hhere, if_pos hup]
            rfl
          · rw [if_neg hroot]
            rfl
      | cons last rest =>
          dsimp only
          by_cases hlast : last = up
          · rw [if_pos hlast]
            simp
          · have hproper : last ≠ here := fun h => hbefore (h ▸ List.mem_cons_self)
            rw [if_neg hlast, List.reverse_cons, List.foldl_append, List.foldl_cons, List.foldl_nil,
              enter, if_neg hhere, if_pos hup, enter, if_neg hproper, if_neg hlast]
            simp
    · rw [if_neg hup]
      simp

theorem here_not_mem_cleanStep {rooted : Bool} {before : List Text} (h : here ∉ before)
    (name : Text) : here ∉ cleanStep rooted before name := by
  unfold cleanStep
  split
  · exact h
  · rename_i hname
    have hcons : here ∉ name :: before := by
      rw [List.mem_cons, not_or]
      exact ⟨Ne.symm hname, h⟩
    split
    · split
      · split
        · exact h
        · simpa using Ne.symm hname
      · rename_i last rest
        split
        · exact hcons
        · exact fun hmem => h (List.mem_cons_of_mem last hmem)
    · exact hcons

theorem foldl_enter_cleaned {rooted : Bool} {start : Place} (hstart : rooted = true → start = []) :
    ∀ (ns before : List Text), here ∉ before →
      (ns.foldl (cleanStep rooted) before).reverse.foldl enter start
        = ns.foldl enter (before.reverse.foldl enter start)
  | [], _, _ => rfl
  | n :: ns, before, h => by
      rw [List.foldl_cons, foldl_enter_cleaned hstart ns _ (here_not_mem_cleanStep h n),
        foldl_enter_cleanStep hstart h, List.foldl_cons]

theorem place_clean (cwd : Place) (p : Text) : place cwd (clean p) = place cwd p := by
  have hstart : isAbsolute p = true → (if isAbsolute p then ([] : Place) else cwd) = [] := by
    intro habs
    rw [if_pos habs]
  have hcleaned : (cleaned p).reverse.foldl enter (if isAbsolute p then [] else cwd)
      = (names p).foldl enter (if isAbsolute p then [] else cwd) :=
    foldl_enter_cleaned hstart (names p) [] List.not_mem_nil
  unfold place
  rw [isAbsolute_clean]
  by_cases hnil : cleaned p = []
  · -- Nothing is left: the clean path is the root or the directory itself.
    rw [← hcleaned, clean_eq, hnil]
    split <;> rfl
  · rw [names_clean p hnil]
    exact hcleaned

theorem clean_ne_nil (p : Text) : clean p ≠ [] := by
  unfold clean
  dsimp only
  split
  · simp [slash_eq]
  · split
    · decide
    · assumption

/-! ## The directory around a path -/

theorem upToLastSlash_append (p : Text) : upToLastSlash p ++ lastName p = p := by
  rw [upToLastSlash, lastName, ← List.reverse_append, List.takeWhile_append_dropWhile,
    List.reverse_reverse]

theorem slash_not_mem_lastName (p : Text) : slash ∉ lastName p := by
  rw [lastName, List.mem_reverse]
  intro hmem
  simpa using List.all_eq_true.mp List.all_takeWhile slash hmem

/-- The text in front of the last name is empty or ends with a slash. -/
theorem upToLastSlash_cases (p : Text) :
    upToLastSlash p = [] ∨ ∃ u, upToLastSlash p = u ++ [slash] := by
  unfold upToLastSlash
  cases hrest : p.reverse.dropWhile (· ≠ slash) with
  | nil => exact .inl rfl
  | cons b rest =>
      have hb := List.head?_dropWhile_not (· ≠ slash) p.reverse
      rw [hrest] at hb
      refine .inr ⟨rest.reverse, ?_⟩
      have hslash : b = slash := by simpa using hb
      rw [hslash, List.reverse_cons]

/-- A path names what its last name, if there is one, names in the directory around it. -/
theorem place_parent_cases (cwd : Place) (p : Text) :
    place cwd p = place cwd (parent p) ∨ ∃ n, place cwd p = enter (place cwd (parent p)) n := by
  have hnames : names p = names (upToLastSlash p) ++ names (lastName p) := by
    rcases upToLastSlash_cases p with hnil | ⟨u, hu⟩
    · have hwhole := upToLastSlash_append p
      rw [hnil, List.nil_append] at hwhole
      rw [hnil, hwhole]
      rfl
    · have hp : p = u ++ slash :: lastName p := by
        rw [← List.singleton_append, ← List.append_assoc, ← hu, upToLastSlash_append]
      have hends : names (upToLastSlash p) = names u := by
        rw [hu, names_append]
        simp [names, Text.splitOnByte]
      rw [hends, ← names_append, ← hp]
  have habs : isAbsolute (upToLastSlash p) = isAbsolute p := by
    rcases upToLastSlash_cases p with hnil | ⟨u, hu⟩
    · have hwhole := upToLastSlash_append p
      rw [hnil, List.nil_append] at hwhole
      have hslash := slash_not_mem_lastName p
      rw [hwhole] at hslash
      rw [hnil]
      cases p with
      | nil => rfl
      | cons b p =>
          have hb : b ≠ slash := fun h => hslash (h ▸ List.mem_cons_self)
          simp [isAbsolute, hb]
    · conv_rhs => rw [← upToLastSlash_append p, hu]
      rw [hu]
      cases u <;> rfl
  have hplace : place cwd p = (names (lastName p)).foldl enter (place cwd (parent p)) := by
    rw [parent, place_clean, place, place, hnames, List.foldl_append, habs]
  by_cases hlast : lastName p = []
  · rw [hlast] at hplace
    exact .inl hplace
  · rw [names_whole ⟨hlast, slash_not_mem_lastName p⟩] at hplace
    exact .inr ⟨lastName p, hplace⟩

/-- A place with a path strictly below it has the directory of the path below it. -/
theorem prefix_parent {cwd c : Place} {p n : Text} (h : c ++ [n] <+: place cwd p) :
    c <+: place cwd (parent p) := by
  have hc : c <+: c ++ [n] := List.prefix_append c [n]
  rcases place_parent_cases cwd p with hp | ⟨m, hp⟩
  · exact hc.trans (hp ▸ h)
  · rw [hp, enter] at h
    split at h
    · exact hc.trans h
    · split at h
      · exact hc.trans (h.trans (List.dropLast_prefix _))
      · rcases List.prefix_concat_iff.mp h with heq | hle
        · exact (List.append_inj' heq rfl).1 ▸ List.prefix_refl _
        · exact hc.trans hle

/-- A place with the directory of a path strictly below it has the path below it: the last name
leads up once at most. -/
theorem prefix_of_parent {cwd c : Place} {p n : Text} (h : c ++ [n] <+: place cwd (parent p)) :
    c <+: place cwd p := by
  have hc : c <+: c ++ [n] := List.prefix_append c [n]
  rcases place_parent_cases cwd p with hp | ⟨m, hp⟩
  · exact hc.trans (hp ▸ h)
  · rw [hp, enter]
    split
    · exact hc.trans h
    · split
      · obtain ⟨s, hs⟩ := h
        rw [← hs]
        rcases List.eq_nil_or_concat s with rfl | ⟨s, b, rfl⟩
        · simp
        · simp
      · exact hc.trans (h.trans (List.prefix_append _ _))

/-! ## Joined paths -/

theorem place_join {cwd : Place} {dir n : Text} {ns : List Text} (hn : ∀ m ∈ n :: ns, Proper m) :
    place cwd (join (dir :: n :: ns)) = place cwd dir ++ n :: ns := by
  have henter : ∀ (ms : List Text) (p : Place), (∀ m ∈ ms, Proper m) →
      ms.foldl enter p = p ++ ms := by
    intro ms
    induction ms with
    | nil => simp
    | cons m ms ih =>
        intro p hms
        obtain ⟨hm, hms⟩ := List.forall_mem_cons.mp hms
        rw [List.foldl_cons, enter_proper hm, ih _ hms, List.append_assoc, List.singleton_append]
  have hrest : names (Text.join "/" (n :: ns)) = n :: ns := names_join fun m hm => (hn m hm).whole
  cases dir with
  | nil =>
      have hne : n ≠ [] := (hn n List.mem_cons_self).whole.1
      have hjoin : join ([] :: n :: ns) = clean (Text.join "/" (n :: ns)) := by
        unfold join
        cases n with
        | nil => exact absurd rfl hne
        | cons b n => rfl
      have habs : isAbsolute (Text.join "/" (n :: ns)) = false := by
        have hslash := (hn n List.mem_cons_self).whole.2
        cases n with
        | nil => exact absurd rfl hne
        | cons b n =>
            have hb : b ≠ slash := fun h => hslash (h ▸ List.mem_cons_self)
            cases ns <;> simp [Text.join, isAbsolute, hb]
      rw [hjoin, place_clean, place, hrest, habs, henter _ _ hn]
      rfl
  | cons b dir =>
      have hjoin : join ((b :: dir) :: n :: ns)
          = clean (b :: dir ++ slash :: Text.join "/" (n :: ns)) := by
        simp [join, Text.join, slash_eq]
      rw [hjoin, place_clean, place, names_append, List.foldl_append, hrest, henter _ _ hn]
      rfl

end Path

/-! ## Trees -/

namespace FileTree

variable {t : FileTree} {p q : Place}

theorem step_place {name : Text} (h : t.step p name = .ok q) : q = Path.enter p name := by
  unfold step at h
  unfold Path.enter
  split at h
  · cases h
  · cases h
  · split at h
    · rename_i hhere
      rw [if_pos hhere]
      cases h
      rfl
    · rename_i hhere
      rw [if_neg hhere]
      split at h
      · rename_i hup
        rw [if_pos hup]
        cases h
        rfl
      · rename_i hup
        rw [if_neg hup]
        split at h
        · cases h
        · cases h
          rfl

/-- Names lead to the place that they name, if they lead anywhere. -/
theorem follow_place : ∀ {names : List Text} {p q : Place}, t.follow p names = .ok q →
    q = names.foldl Path.enter p
  | [], p, q, h => by
      cases h
      rfl
  | name :: names, p, q, h => by
      rw [follow, List.foldlM_cons] at h
      cases hstep : t.step p name with
      | error e => rw [hstep] at h; cases h
      | ok p' =>
          rw [hstep] at h
          rw [List.foldl_cons, ← step_place hstep]
          exact follow_place h

variable {cwd : Place} {path : Text} {r : Route}

theorem route_place (h : route cwd path = .ok r) :
    r.names.foldl Path.enter r.start = Path.place cwd path := by
  unfold route at h
  split at h
  · cases h
  · split at h
    · cases h
    · split at h
      · cases h
      · cases h
        rfl

theorem locate_place (h : route cwd path = .ok r) (hp : t.locate r = .ok p) :
    p = Path.place cwd path := (follow_place hp).trans (route_place h)

theorem find_place {n : FileNode} (h : route cwd path = .ok r) (hp : t.find r = .ok (p, n)) :
    p = Path.place cwd path ∧ t.get? p = some n := by
  unfold find at hp
  cases hq : t.follow r.start (if r.slashed then r.names ++ [Path.here] else r.names) with
  | error e => rw [hq] at hp; cases hp
  | ok q =>
      have hplace : q = Path.place cwd path := by
        rw [← route_place h]
        refine (follow_place hq).trans ?_
        split
        · rw [List.foldl_append]
          rfl
        · rfl
      rw [hq] at hp
      cases hget : t.get? q with
      | none => simp [hget, bind, Except.bind] at hp
      | some n' =>
          simp only [hget, bind, Except.bind] at hp
          cases hp
          exact ⟨hplace, hget⟩

/-! ## What changes change -/

section Lookup

variable {α β : Type} [BEq α] [LawfulBEq α]

theorem lookup_cons_ne {e : α × β} {a : α} (h : a ≠ e.1) (l : List (α × β)) :
    (e :: l).lookup a = l.lookup a := by
  have hne : (a == e.1) = false := by simpa using h
  rw [List.lookup_cons, hne]

theorem lookup_cons_self (a : α) (b : β) (l : List (α × β)) : ((a, b) :: l).lookup a = some b := by
  rw [List.lookup_cons, beq_self_eq_true]

theorem lookup_filter {f : α → Bool} (l : List (α × β)) (a : α) :
    (l.filter fun e => f e.1).lookup a = if f a then l.lookup a else none := by
  induction l with
  | nil => simp
  | cons e l ih =>
      obtain ⟨k, v⟩ := e
      rw [List.filter_cons]
      by_cases ha : a = k
      · subst ha
        cases hf : f a with
        | true => rw [if_pos rfl, if_pos rfl, lookup_cons_self, lookup_cons_self]
        | false => simpa [hf] using ih
      · rw [lookup_cons_ne ha, ← ih]
        split
        · rw [lookup_cons_ne ha]
        · rfl

end Lookup

theorem get?_root (t : FileTree) : t.get? [] = some .dir := if_pos rfl

theorem ne_root (t : FileTree) {z : Place} (h : t.get? z ≠ some .dir) : z ≠ [] := by
  rintro rfl
  exact h t.get?_root

theorem get?_erase (t : FileTree) {p : Place} (hp : p ≠ []) (z : Place) :
    (t.erase p).get? z = if z = p then none else t.get? z := by
  unfold get? erase
  dsimp only
  rw [lookup_filter (f := fun x : Place => decide (x ≠ p))]
  by_cases hz : z = []
  · subst hz
    rw [if_pos rfl, if_neg hp.symm, if_pos rfl]
  · simp [hz]

theorem get?_insert (t : FileTree) {p : Place} (hp : p ≠ []) (n : FileNode) (z : Place) :
    (t.insert p n).get? z = if z = p then some n else t.get? z := by
  have herase := t.get?_erase hp z
  unfold get? at herase ⊢
  unfold insert
  dsimp only
  by_cases hz : z = []
  · subst hz
    rw [if_pos rfl, if_neg hp.symm, if_pos rfl]
  · rw [if_neg hz] at herase ⊢
    rw [List.lookup_cons]
    by_cases hzp : z = p
    · subst hzp
      simp
    · have hne : (z == p) = false := by simpa using hzp
      rw [hne, if_neg hzp]
      rw [if_neg hzp] at herase
      exact herase

/-- Everything below the source stands below the target. -/
theorem get?_move_below (t : FileTree) {p q : Place} (hp : p ≠ []) (hq : q ≠ []) (s : Place) :
    (t.move p q).get? (q ++ s) = t.get? (p ++ s) := by
  have hlookup : ∀ l rest : List (Place × FileNode), rest.lookup (q ++ s) = none →
      (((l.filter fun e => p.isPrefixOf e.1).map fun e => (q ++ e.1.drop p.length, e.2)) ++
        rest).lookup (q ++ s) = l.lookup (p ++ s) := by
    intro l rest hrest
    induction l with
    | nil => simpa using hrest
    | cons e l ih =>
        rw [List.filter_cons]
        by_cases hbelow : p.isPrefixOf e.1 = true
        · obtain ⟨s', hs'⟩ := List.isPrefixOf_iff_prefix.mp hbelow
          obtain ⟨z, n⟩ := e
          subst hs'
          rw [if_pos hbelow, List.map_cons, List.cons_append, List.drop_left]
          by_cases hs : s = s'
          · subst hs
            rw [lookup_cons_self, lookup_cons_self]
          · have hne : q ++ s ≠ q ++ s' := fun h => hs (List.append_cancel_left h)
            have hne' : p ++ s ≠ p ++ s' := fun h => hs (List.append_cancel_left h)
            rw [lookup_cons_ne hne, lookup_cons_ne hne', ih]
        · have hne : p ++ s ≠ e.1 := by
            intro h
            exact hbelow (List.isPrefixOf_iff_prefix.mpr ⟨s, h⟩)
          rw [if_neg hbelow, lookup_cons_ne hne, ih]
  have hrest : ((t.eraseBelow p).eraseBelow q).nodes.lookup (q ++ s) = none := by
    have hbelow : q.isPrefixOf (q ++ s) = true :=
      List.isPrefixOf_iff_prefix.mpr (List.prefix_append _ _)
    rw [eraseBelow, lookup_filter (f := fun z : Place => !q.isPrefixOf z), hbelow]
    rfl
  unfold get? move
  rw [if_neg (by simp [hq]), if_neg (by simp [hp])]
  exact hlookup t.nodes _ hrest

/-- Everywhere else a move only takes away. -/
theorem get?_move_apart (t : FileTree) {p q z : Place} (hz : ¬ q <+: z) :
    (t.move p q).get? z = if z ≠ [] ∧ p <+: z then none else t.get? z := by
  have hlookup : ∀ l rest : List (Place × FileNode),
      (((l.filter fun e => p.isPrefixOf e.1).map fun e => (q ++ e.1.drop p.length, e.2)) ++
        rest).lookup z = rest.lookup z := by
    intro l rest
    induction l with
    | nil => rfl
    | cons e l ih =>
        rw [List.filter_cons]
        split
        · have hne : z ≠ q ++ e.1.drop p.length := by
            rintro rfl
            exact hz (List.prefix_append _ _)
          rw [List.map_cons, List.cons_append, lookup_cons_ne hne, ih]
        · exact ih
  unfold get? move
  by_cases hnil : z = []
  · simp [hnil]
  · rw [if_neg hnil, if_neg hnil, hlookup]
    have hapart : q.isPrefixOf z = false := by
      rw [Bool.eq_false_iff, ne_eq, List.isPrefixOf_iff_prefix]
      exact hz
    rw [eraseBelow, lookup_filter (f := fun z : Place => !q.isPrefixOf z), hapart, Bool.not_false,
      if_pos rfl, eraseBelow, lookup_filter (f := fun z : Place => !p.isPrefixOf z)]
    simp only [Bool.not_eq_true', Bool.eq_false_iff, ne_eq, List.isPrefixOf_iff_prefix, hnil,
      not_false_eq_true, true_and, ite_not]

end FileTree

end Monomorph
