import Mathlib.Data.List.Nodup
import Monomorph.Proofs.Turns

/-!
# Spans and the forests they leave

Spans are numbered, entered and left; points happen under spans. `Trail` has one constructor for each
of these moves and says which spans are held meanwhile, so that what is true of every trace is an
induction on it. When nothing is held any more, the events form a `Forest` (`Trail.forest`): each
span that begins ends once, later and as the same span, under a parent that is still open and of a
coarser scope. A forest stays one at every level (`Forest.keeps`).

`Trails` says that a tracer has left such a trail; the moves of a tracer each keep it.
-/

namespace Monomorph

namespace Trace

/-! ## Forests -/

/-- The events of a span, in their order. -/
def life (id : Nat) (es : List Event) : List Event := es.filter fun e => e.span = id

/-- The events begin and end one span. -/
structure Spans (b f : Event) : Prop where
  begins : b.kind = .begin
  finishes : f.kind = .finish
  scope : f.scope = b.scope
  name : f.name = b.name
  parent : f.parent = b.parent

/-- A trace in which every span that begins ends once, later and as the same span, and in which
every event is at the top or under a span of a coarser scope that has begun and has not ended. -/
structure Forest (es : List Event) : Prop where
  lives : ∀ id, id ≠ 0 → life id es = [] ∨ ∃ b f, life id es = [b, f] ∧ Spans b f
  points : ∀ e ∈ es, e.span = 0 → e.kind = .point
  parents : ∀ pre e post, es = pre ++ e :: post →
    e.parent = 0 ∨ ∃ b, life e.parent pre = [b] ∧ b.kind = .begin ∧ b.scope.code < e.scope.code

theorem life_snoc_same {id : Nat} {e : Event} (h : e.span = id) (es : List Event) :
    life id (es ++ [e]) = life id es ++ [e] := by
  simp [life, h]

theorem life_snoc_other {id : Nat} {e : Event} (h : e.span ≠ id) (es : List Event) :
    life id (es ++ [e]) = life id es := by
  simp [life, h]

theorem life_filter (id : Nat) (p : Event → Bool) (es : List Event) :
    life id (es.filter p) = (life id es).filter p := List.filter_comm ..

/-- What keeps a scope keeps the coarser ones. -/
theorem Level.keeps_of_le {l : Level} {s s' : Scope} (h : l.keeps s = true) (hle : s'.code ≤ s.code) :
    l.keeps s' = true := by
  unfold keeps at h ⊢
  split at h
  · rw [if_pos ‹_›]
    exact decide_eq_true (UInt8.le_trans hle (of_decide_eq_true h))
  · rw [if_neg ‹_›]
    split at h
    · rw [if_pos ‹_›]
      exact decide_eq_true (UInt8.le_trans hle (of_decide_eq_true h))
    · rw [if_neg ‹_›]
      exact h

/-- What a level keeps of a forest is a forest: no event that is kept has a parent that is not. -/
theorem Forest.keeps {es : List Event} (h : Forest es) (l : Level) :
    Forest (es.filter fun e => l.keeps e.scope) := by
  refine ⟨?_, ?_, ?_⟩
  · intro id hid
    rw [life_filter]
    rcases h.lives id hid with hnone | ⟨b, f, hlife, hspans⟩
    · exact Or.inl (by rw [hnone, List.filter_nil])
    · cases hb : l.keeps b.scope with
      | false => exact Or.inl (by simp [hlife, hspans.scope, hb])
      | true => exact Or.inr ⟨b, f, by simp [hlife, hspans.scope, hb], hspans⟩
  · intro e he
    exact h.points e (List.mem_of_mem_filter he)
  · intro pre e post hsplit
    rcases List.filter_eq_append_iff.mp hsplit with ⟨xs, ys, rfl, rfl, hys⟩
    rcases List.filter_eq_cons_iff.mp hys with ⟨zs, ws, rfl, hzs, he, -⟩
    rcases h.parents (xs ++ zs) e ws (List.append_assoc ..).symm with htop | ⟨b, hlife, hb, hlt⟩
    · exact Or.inl htop
    · -- The parent is of a coarser scope than the event, so the level keeps it too.
      have hkept : l.keeps b.scope = true := Level.keeps_of_le he (UInt8.le_of_lt hlt)
      have hpre : (xs ++ zs).filter (fun e => l.keeps e.scope)
          = xs.filter fun e => l.keeps e.scope := by
        rw [List.filter_append, List.filter_eq_nil_iff.mpr hzs, List.append_nil]
      refine Or.inr ⟨b, ?_, hb, hlt⟩
      rw [← hpre, life_filter, hlife]
      simp [hkept]

/-! ## Trails -/

/-- A span that has a number: it waits to be entered, or it is open. -/
inductive Held where
  | waiting (s : Span)
  | opened (s : Span)

def Held.id : Held → Nat
  | .waiting s | .opened s => s.id

/-- The event is about the span. -/
structure Event.Of (e : Event) (s : Span) : Prop where
  span : e.span = s.id
  scope : e.scope = s.scope
  name : e.name = s.name
  parent : e.parent = s.parent

/-- Nothing, or a span of a coarser scope that is open. -/
def Under (hs : List Held) (parent : Nat) (scope : Scope) : Prop :=
  parent = 0 ∨ ∃ s, .opened s ∈ hs ∧ s.id = parent ∧ s.scope.code < scope.code

/-- The events that the moves of spans leave, with the spans that are held and the last number. -/
inductive Trail : List Event → List Held → Nat → Prop
  | empty (n : Nat) : Trail [] [] n
  | number {es : List Event} {xs ys : List Held} {n : Nat} {s : Span} (h : Trail es (xs ++ ys) n)
      (hs : s.id = n + 1) : Trail es (xs ++ .waiting s :: ys) (n + 1)
  | enter {es : List Event} {xs ys : List Held} {n : Nat} {s : Span} {b : Event}
      (h : Trail es (xs ++ .waiting s :: ys) n) (hb : b.kind = .begin) (hs : b.Of s)
      (hu : Under (xs ++ ys) s.parent s.scope) : Trail (es ++ [b]) (xs ++ .opened s :: ys) n
  | point {es : List Event} {hs : List Held} {n : Nat} {e : Event} (h : Trail es hs n)
      (he : e.kind = .point) (hspan : e.span = 0) (hu : Under hs e.parent e.scope) :
      Trail (es ++ [e]) hs n
  | leave {es : List Event} {xs ys : List Held} {n : Nat} {s : Span} {f : Event}
      (h : Trail es (xs ++ .opened s :: ys) n) (hf : f.kind = .finish) (hs : f.Of s)
      (hu : Under (xs ++ ys) s.parent s.scope) : Trail (es ++ [f]) (xs ++ ys) n

theorem mem_middle {xs ys : List Held} {x y : Held} :
    x ∈ xs ++ y :: ys ↔ x = y ∨ x ∈ xs ++ ys := by
  rw [List.perm_middle.mem_iff, List.mem_cons]

theorem Under.mono {hs hs' : List Held} {parent : Nat} {scope : Scope} (h : Under hs parent scope)
    (hle : hs ⊆ hs') : Under hs' parent scope := by
  rcases h with htop | ⟨s, hs, hrest⟩
  · exact Or.inl htop
  · exact Or.inr ⟨s, hle hs, hrest⟩

theorem subset_middle (xs : List Held) (x : Held) (ys : List Held) : xs ++ ys ⊆ xs ++ x :: ys :=
  fun _ hy => mem_middle.mpr (Or.inr hy)

namespace Trail

variable {es : List Event} {hs : List Held} {n : Nat}

theorem held_le (h : Trail es hs n) : ∀ x ∈ hs, 0 < x.id ∧ x.id ≤ n := by
  induction h with
  | empty n => simp
  | number _ hs ih =>
      intro x hx
      rcases mem_middle.mp hx with rfl | hx
      · rw [Held.id]
        omega
      · have := ih x hx
        omega
  | enter _ _ _ _ ih =>
      intro x hx
      rcases mem_middle.mp hx with rfl | hx
      · exact ih (.waiting _) (mem_middle.mpr (Or.inl rfl))
      · exact ih x (mem_middle.mpr (Or.inr hx))
  | point _ _ _ _ ih => exact ih
  | leave _ _ _ _ ih => exact fun x hx => ih x (mem_middle.mpr (Or.inr hx))

theorem nodup (h : Trail es hs n) : (hs.map Held.id).Nodup := by
  induction h with
  | empty n => exact List.nodup_nil
  | @number es xs ys n s h hs ih =>
      have hfresh : s.id ∉ (xs ++ ys).map Held.id := by
        intro hmem
        rcases List.mem_map.mp hmem with ⟨x, hx, hid⟩
        have := h.held_le x hx
        omega
      rw [List.map_append] at ih hfresh
      rw [List.map_append, List.map_cons]
      exact List.nodup_middle.mpr (List.nodup_cons.mpr ⟨hfresh, ih⟩)
  | enter _ _ _ _ ih =>
      rw [List.map_append, List.map_cons] at ih ⊢
      exact ih
  | point _ _ _ _ ih => exact ih
  | leave _ _ _ _ ih =>
      rw [List.map_append, List.map_cons] at ih
      rw [List.map_append]
      exact (List.nodup_middle.mp ih).of_cons

/-- A span that is held in the middle has a number of its own. -/
theorem id_ne {xs ys : List Held} {x y : Held} (h : Trail es (xs ++ x :: ys) n)
    (hy : y ∈ xs ++ ys) : x.id ≠ y.id := by
  have hnodup := h.nodup
  rw [List.map_append, List.map_cons, List.nodup_middle, ← List.map_append] at hnodup
  intro hid
  exact (List.nodup_cons.mp hnodup).1 (hid ▸ List.mem_map_of_mem hy)

theorem span_le (h : Trail es hs n) : ∀ e ∈ es, e.span ≤ n := by
  have hsnoc : ∀ {es : List Event} {e : Event} {n : Nat}, (∀ e ∈ es, e.span ≤ n) → e.span ≤ n →
      ∀ e' ∈ es ++ [e], e'.span ≤ n := by
    intro es e n hes he e' he'
    rcases List.mem_append.mp he' with he' | he'
    · exact hes e' he'
    · rw [List.mem_singleton.mp he']
      exact he
  induction h with
  | empty n => simp
  | number _ _ ih => exact fun e he => Nat.le_succ_of_le (ih e he)
  | enter h _ hs _ ih => exact hsnoc ih (hs.span ▸ (h.held_le _ (mem_middle.mpr (Or.inl rfl))).2)
  | point _ _ hspan _ ih => exact hsnoc ih (hspan ▸ Nat.zero_le _)
  | leave h _ hs _ ih => exact hsnoc ih (hs.span ▸ (h.held_le _ (mem_middle.mpr (Or.inl rfl))).2)

/-- A number that has not been given yet has no life. -/
theorem life_fresh (h : Trail es hs n) {id : Nat} (hid : n < id) : life id es = [] := by
  refine List.filter_eq_nil_iff.mpr fun e he => ?_
  have := h.span_le e he
  simp only [decide_eq_true_eq]
  omega

/-- An event of a held span is none of the others'. -/
theorem life_snoc_held {xs ys : List Held} {x y : Held} {e : Event} (h : Trail es (xs ++ x :: ys) n)
    (he : e.span = x.id) (hy : y ∈ xs ++ ys) : life y.id (es ++ [e]) = life y.id es :=
  life_snoc_other (he ▸ h.id_ne hy) es

/-- The life of a held span: nothing while it waits, its beginning while it is open. -/
theorem life_held (h : Trail es hs n) :
    (∀ s, .waiting s ∈ hs → life s.id es = []) ∧
      ∀ s, .opened s ∈ hs → ∃ b, life s.id es = [b] ∧ b.kind = .begin ∧ b.Of s := by
  induction h with
  | empty n => simp
  | @number es xs ys n s h hs ih =>
      constructor
      · intro s' hs'
        rcases mem_middle.mp hs' with heq | hs'
        · cases heq
          exact h.life_fresh (by omega)
        · exact ih.1 s' hs'
      · intro s' hs'
        rcases mem_middle.mp hs' with heq | hs'
        · cases heq
        · exact ih.2 s' hs'
  | @enter es xs ys n s b h hb hs hu ih =>
      constructor
      · intro s' hs'
        rcases mem_middle.mp hs' with heq | hs'
        · cases heq
        · exact (h.life_snoc_held hs.span hs').trans (ih.1 s' (subset_middle _ _ _ hs'))
      · intro s' hs'
        rcases mem_middle.mp hs' with heq | hs'
        · cases heq
          refine ⟨b, ?_, hb, hs⟩
          rw [life_snoc_same hs.span, ih.1 s (mem_middle.mpr (Or.inl rfl)), List.nil_append]
        · rcases ih.2 s' (subset_middle _ _ _ hs') with ⟨b', hlife, hbegun⟩
          exact ⟨b', (h.life_snoc_held hs.span hs').trans hlife, hbegun⟩
  | @point es hs n e h he hspan hu ih =>
      have hkept : ∀ x ∈ hs, life x.id (es ++ [e]) = life x.id es := by
        intro x hx
        have := h.held_le x hx
        exact life_snoc_other (by omega) es
      constructor
      · exact fun s' hs' => (hkept _ hs').trans (ih.1 s' hs')
      · intro s' hs'
        rcases ih.2 s' hs' with ⟨b, hlife, hbegun⟩
        exact ⟨b, (hkept _ hs').trans hlife, hbegun⟩
  | @leave es xs ys n s f h hf hs hu ih =>
      constructor
      · exact fun s' hs' =>
          (h.life_snoc_held hs.span hs').trans (ih.1 s' (subset_middle _ _ _ hs'))
      · intro s' hs'
        rcases ih.2 s' (subset_middle _ _ _ hs') with ⟨b, hlife, hbegun⟩
        exact ⟨b, (h.life_snoc_held hs.span hs').trans hlife, hbegun⟩

/-- The life of a span that is not open: it has not begun, or it has begun and ended. -/
theorem life_closed (h : Trail es hs n) {id : Nat} (hid : id ≠ 0) :
    (∀ s, .opened s ∈ hs → s.id ≠ id) →
      life id es = [] ∨ ∃ b f, life id es = [b, f] ∧ Spans b f := by
  induction h with
  | empty n => exact fun _ => Or.inl rfl
  | number _ _ ih => exact fun hopen => ih fun s hs => hopen s (mem_middle.mpr (Or.inr hs))
  | @enter es xs ys n s b h hb hs hu ih =>
      intro hopen
      have hne : b.span ≠ id := hs.span ▸ hopen s (mem_middle.mpr (Or.inl rfl))
      rw [life_snoc_other hne]
      refine ih fun s' hs' => ?_
      rcases mem_middle.mp hs' with heq | hs'
      · cases heq
      · exact hopen s' (mem_middle.mpr (Or.inr hs'))
  | point _ _ hspan _ ih =>
      intro hopen
      rw [life_snoc_other (by omega)]
      exact ih hopen
  | @leave es xs ys n s f h hf hs hu ih =>
      intro hopen
      by_cases hsame : s.id = id
      · -- The span that is left was open, so its life was its beginning.
        rcases h.life_held.2 s (mem_middle.mpr (Or.inl rfl)) with ⟨b, hlife, hb, hbs⟩
        refine Or.inr ⟨b, f, ?_, hb, hf, ?_, ?_, ?_⟩
        · rw [← hsame, life_snoc_same hs.span, hlife, List.singleton_append]
        · rw [hs.scope, hbs.scope]
        · rw [hs.name, hbs.name]
        · rw [hs.parent, hbs.parent]
      · rw [life_snoc_other (hs.span ▸ hsame)]
        refine ih fun s' hs' => ?_
        rcases mem_middle.mp hs' with heq | hs'
        · cases heq
          exact hsame
        · exact hopen s' hs'

theorem points (h : Trail es hs n) : ∀ e ∈ es, e.span = 0 → e.kind = .point := by
  have hsnoc : ∀ {es : List Event} {e : Event}, (∀ e ∈ es, e.span = 0 → e.kind = .point) →
      (e.span = 0 → e.kind = .point) → ∀ e' ∈ es ++ [e], e'.span = 0 → e'.kind = .point := by
    intro es e hes he e' he'
    rcases List.mem_append.mp he' with he' | he'
    · exact hes e' he'
    · rw [List.mem_singleton.mp he']
      exact he
  induction h with
  | empty n => simp
  | number _ _ ih => exact ih
  | enter h _ hs _ ih =>
      refine hsnoc ih fun hzero => ?_
      have hpos := (h.held_le _ (mem_middle.mpr (Or.inl rfl))).1
      rw [Held.id, ← hs.span] at hpos
      omega
  | point _ he _ _ ih => exact hsnoc ih fun _ => he
  | leave h _ hs _ ih =>
      refine hsnoc ih fun hzero => ?_
      have hpos := (h.held_le _ (mem_middle.mpr (Or.inl rfl))).1
      rw [Held.id, ← hs.span] at hpos
      omega

/-- What an event is under has begun before it and has not ended. -/
theorem life_under (h : Trail es hs n) {parent : Nat} {scope : Scope}
    (hu : Under hs parent scope) :
    parent = 0 ∨ ∃ b, life parent es = [b] ∧ b.kind = .begin ∧ b.scope.code < scope.code := by
  rcases hu with htop | ⟨s, hs, rfl, hlt⟩
  · exact Or.inl htop
  · rcases h.life_held.2 s hs with ⟨b, hlife, hb, hbs⟩
    exact Or.inr ⟨b, hlife, hb, hbs.scope ▸ hlt⟩

theorem parents (h : Trail es hs n) : ∀ pre e post, es = pre ++ e :: post →
    e.parent = 0 ∨ ∃ b, life e.parent pre = [b] ∧ b.kind = .begin ∧ b.scope.code < e.scope.code := by
  have hsnoc : ∀ {es : List Event} {x : Event},
      (∀ pre e post, es = pre ++ e :: post → e.parent = 0 ∨
        ∃ b, life e.parent pre = [b] ∧ b.kind = .begin ∧ b.scope.code < e.scope.code) →
      (x.parent = 0 ∨
        ∃ b, life x.parent es = [b] ∧ b.kind = .begin ∧ b.scope.code < x.scope.code) →
      ∀ pre e post, es ++ [x] = pre ++ e :: post → e.parent = 0 ∨
        ∃ b, life e.parent pre = [b] ∧ b.kind = .begin ∧ b.scope.code < e.scope.code := by
    intro es x hes hx pre e post hsplit
    rcases List.eq_nil_or_concat post with rfl | ⟨post, y, rfl⟩
    · obtain ⟨rfl, hlast⟩ := List.append_inj' hsplit rfl
      cases hlast
      exact hx
    · rw [List.concat_eq_append, ← List.cons_append, ← List.append_assoc] at hsplit
      exact hes pre e post (List.append_inj' hsplit rfl).1
  induction h with
  | empty n =>
      intro pre e post hsplit
      simp at hsplit
  | number _ _ ih => exact ih
  | enter h _ hs hu ih =>
      refine hsnoc ih ?_
      rw [hs.parent, hs.scope]
      exact h.life_under (hu.mono (subset_middle _ _ _))
  | point h _ _ hu ih => exact hsnoc ih (h.life_under hu)
  | leave h _ hs hu ih =>
      refine hsnoc ih ?_
      rw [hs.parent, hs.scope]
      exact h.life_under (hu.mono (subset_middle _ _ _))

/-- **Trails end in forests.** When no span is held any more, the trace is a forest. -/
theorem forest (h : Trail es [] n) : Forest es :=
  ⟨fun _ hid => h.life_closed hid (by simp), h.points, h.parents⟩

end Trail

/-! ## Tracers leave trails -/

namespace Span

/-- What is held of a numbered span; an inert one is nothing to hold. -/
def waits (s : Span) : List Held := if s.live then [.waiting s] else []

@[inherit_doc waits]
def opens (s : Span) : List Held := if s.live then [.opened s] else []

/-- The span is live under that parent and in that scope, which the level keeps, or it is inert and
its number is that of the top. -/
def Fits (s : Span) (level : Level) (parent : Nat) (scope : Scope) : Prop :=
  (s.live = true ∧ s.parent = parent ∧ s.scope = scope ∧ level.keeps scope = true) ∨
    (s.live = false ∧ s.id = 0)

/-- What is inside a span may say that it is under it. -/
theorem Fits.under {s : Span} {level : Level} {parent : Nat} {scope finer : Scope}
    (h : s.Fits level parent scope) (hfiner : scope.code < finer.code) (hs : List Held) :
    Under (s.opens ++ hs) s.id finer := by
  rcases h with ⟨hlive, -, rfl, -⟩ | ⟨-, hid⟩
  · exact Or.inr ⟨s, by simp [opens, hlive], rfl, hfiner⟩
  · exact Or.inl hid

end Span

theorem Tracer.number_active {t : Tracer} {scope : Scope} (h : t.isActive scope = true)
    (name : Text) (parent : Nat) :
    (t.number scope name parent).2.live = true ∧ (t.number scope name parent).2.name = name := by
  rw [number, if_pos h]
  exact ⟨rfl, rfl⟩

/-- Values that are attached to a span change what sinks hold, and nothing else of the tracer. -/
theorem Tracer.left_eq (t : Tracer) (s : Span) (c : Closing) :
    ∃ sinks extra, t.left s c = ({ t with sinks } : Tracer).finish { s with extra } c.detail := by
  have hattach : ∀ (values : List (Text × Text)) (t : Tracer) (s : Span), ∃ sinks extra,
      values.foldl (fun r kv => r.1.attach r.2 kv.1 kv.2) (t, s)
        = ({ t with sinks }, { s with extra }) := by
    intro values
    induction values with
    | nil => exact fun t s => ⟨t.sinks, s.extra, rfl⟩
    | cons kv values ih =>
        intro t s
        have hone : ∃ sinks extra, t.attach s kv.1 kv.2 = ({ t with sinks }, { s with extra }) := by
          unfold attach
          split
          · exact ⟨t.sinks, s.extra, rfl⟩
          · exact ⟨_, _, rfl⟩
        rcases hone with ⟨sinks, extra, hone⟩
        rcases ih { t with sinks } { s with extra } with ⟨sinks', extra', hrest⟩
        refine ⟨sinks', extra', ?_⟩
        rw [List.foldl_cons, hone, hrest]
  rcases hattach c.values t s with ⟨sinks, extra, h⟩
  refine ⟨sinks, extra, ?_⟩
  show (List.foldl (fun r kv => r.1.attach r.2 kv.1 kv.2) (t, s) c.values).1.finish
    (List.foldl (fun r kv => r.1.attach r.2 kv.1 kv.2) (t, s) c.values).2 c.detail = _
  rw [h]

/-- A live span that is left ends. -/
theorem Tracer.left_live (t : Tracer) {s : Span} (h : s.live = true) (c : Closing) :
    ∃ f : Event, (t.left s c).history = t.history ++ [f] ∧ f.kind = .finish ∧ f.Of s := by
  rcases t.left_eq s c with ⟨sinks, extra, heq⟩
  rw [heq, finish, if_pos h]
  exact ⟨_, rfl, rfl, rfl, rfl, rfl, rfl⟩

/-- Since `old` the tracer has left a trail of events that its level keeps. -/
structure Trails (level : Level) (old : List Event) (hs : List Held) (t : Tracer) : Prop where
  same : t.level = level
  trail : ∃ es, t.history = old ++ es ∧ Trail es hs t.spans ∧ ∀ e ∈ es, level.keeps e.scope = true

namespace Trails

variable {level : Level} {old : List Event} {hs xs ys : List Held} {t t' : Tracer} {s : Span}
  {scope : Scope} {name : Text} {parent : Nat}

theorem congr (h : Trails level old hs t) (hlevel : t'.level = t.level)
    (hhistory : t'.history = t.history) (hspans : t'.spans = t.spans) : Trails level old hs t' := by
  rcases h with ⟨hl, es, hes, htrail, hkept⟩
  exact ⟨hlevel.trans hl, es, hhistory.trans hes, hspans ▸ htrail, hkept⟩

theorem later (h : Trails level old hs t) (now : Instant) : Trails level old hs { t with now } :=
  h.congr rfl rfl rfl

theorem number (h : Trails level old (xs ++ ys) t) (hs : t.number scope name parent = (t', s)) :
    Trails level old (xs ++ s.waits ++ ys) t' ∧ s.Fits level parent scope := by
  rcases h with ⟨rfl, es, hes, htrail, hkept⟩
  unfold Tracer.number at hs
  split at hs
  · rename_i hactive
    cases hs
    have hkeeps : t.level.keeps scope = true := (Bool.and_eq_true_iff.mp hactive).2
    rw [List.append_assoc]
    exact ⟨⟨rfl, es, hes, .number htrail rfl, hkept⟩, Or.inl ⟨rfl, rfl, rfl, hkeeps⟩⟩
  · cases hs
    rw [Span.waits, if_neg (by simp), List.append_nil]
    exact ⟨⟨rfl, es, hes, htrail, hkept⟩, Or.inr ⟨rfl, rfl⟩⟩

/-- One more event that the level keeps. -/
theorem emitNext (h : Trails level old hs t) (e : Event) {hs' : List Held}
    (hkeeps : level.keeps e.scope = true)
    (hstep : ∀ es n e', e'.kind = e.kind → e'.span = e.span → e'.scope = e.scope →
      e'.name = e.name → e'.parent = e.parent → Trail es hs n → Trail (es ++ [e']) hs' n) :
    Trails level old hs' (t.emitNext e) := by
  rcases h with ⟨hl, es, hes, htrail, hkept⟩
  refine ⟨hl, es ++ [{ e with seq := t.seq + 1, time := t.now }], ?_, ?_, ?_⟩
  · rw [← List.append_assoc, ← hes]
    rfl
  · exact hstep es t.spans _ rfl rfl rfl rfl rfl htrail
  · intro e' he'
    rcases List.mem_append.mp he' with he' | he'
    · exact hkept e' he'
    · rw [List.mem_singleton.mp he']
      exact hkeeps

theorem enter (h : Trails level old (xs ++ s.waits ++ ys) t) (hfits : s.Fits level parent scope)
    (hu : Under (xs ++ ys) parent scope) :
    Trails level old (xs ++ s.opens ++ ys) (t.enter s) := by
  unfold Span.waits at h
  unfold Span.opens Tracer.enter
  rcases hfits with ⟨hlive, rfl, rfl, hkeeps⟩ | ⟨hlive, -⟩
  · rw [if_pos hlive, List.append_assoc] at h
    rw [if_pos hlive, if_pos hlive, List.append_assoc]
    refine h.emitNext _ hkeeps fun es n b hkind hspan hscope hname hparent htrail => ?_
    exact .enter htrail hkind ⟨hspan, hscope, hname, hparent⟩ hu
  · rw [hlive] at h ⊢
    exact h

theorem point (h : Trails level old hs t) (detail : Text) (hu : Under hs parent scope) :
    Trails level old hs (t.point scope name detail parent) := by
  unfold Tracer.point
  split
  · rename_i hactive
    have hkeeps : level.keeps scope = true := by
      rw [← h.same]
      exact (Bool.and_eq_true_iff.mp hactive).2
    refine h.emitNext _ hkeeps fun es n e hkind hspan hscope _ hparent htrail => ?_
    exact .point htrail hkind hspan (by rw [hparent, hscope]; exact hu)
  · exact h

theorem left (h : Trails level old (xs ++ s.opens ++ ys) t) (c : Closing)
    (hfits : s.Fits level parent scope) (hu : Under (xs ++ ys) parent scope) :
    Trails level old (xs ++ ys) (t.left s c) := by
  rcases t.left_eq s c with ⟨sinks, extra, heq⟩
  have h₁ : Trails level old (xs ++ s.opens ++ ys) { t with sinks } := h.congr rfl rfl rfl
  unfold Span.opens at h₁
  rw [heq, Tracer.finish]
  rcases hfits with ⟨hlive, rfl, rfl, hkeeps⟩ | ⟨hlive, -⟩
  · rw [if_pos hlive, List.append_assoc] at h₁
    rw [if_pos hlive]
    refine h₁.emitNext _ hkeeps fun es n f hkind hspan hscope hname hparent htrail => ?_
    exact .leave htrail hkind ⟨hspan, hscope, hname, hparent⟩ hu
  · have hinert : ¬ s.live = true := by rw [hlive]; exact Bool.false_ne_true
    rw [if_neg hinert, List.append_nil] at h₁
    rw [if_neg hinert]
    exact h₁

end Trails

end Trace

end Monomorph
