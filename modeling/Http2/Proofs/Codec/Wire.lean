import Http2.Frame.Basic

/-!
# Regular sequences of frames

What one side sends is made of bundles: header blocks, DATA frames and resets. `flatten_unique` says
that a sequence of frames is made of bundles in one way at most. `MayPrecede` is the law between two
bundles of one stream, and `regular_of_bundles` what it means for the single frames of all bundles: a
stream is ended once at most, and nothing but a reset comes after.
-/

namespace Http2

/-- Frames that belong together: a header block, a DATA frame or a reset. -/
inductive Bundle : List Frame → Prop
  /-- HEADERS, then CONTINUATIONs of its stream, of which the last frame ends the block. -/
  | block {opening last : Frame} {continuations front : List Frame} (kind : opening.kind = .headers)
      (continues : ∀ f ∈ continuations, f.kind = .continuation ∧ f.stream = opening.stream ∧
        f.hasFlag Flag.endStream = false)
      (split : opening :: continuations = front ++ [last])
      (ended : last.hasFlag Flag.endHeaders = true)
      (more : ∀ f ∈ front, f.hasFlag Flag.endHeaders = false) : Bundle (opening :: continuations)
  | data {f : Frame} (kind : f.kind = .data) : Bundle [f]
  | reset {f : Frame} (kind : f.kind = .rstStream) (size : f.length = 4)
      (plain : f.hasFlag Flag.endStream = false) : Bundle [f]

/-- Frames that are made of bundles. -/
structure Bundled (frames : List Frame) (bundles : List (List Frame)) : Prop where
  flatten : bundles.flatten = frames
  whole : ∀ bundle ∈ bundles, Bundle bundle

/-- A sequence of frames that one side of a connection may send. -/
structure Regular (frames : List Frame) : Prop where
  /-- It is made of bundles in one way. -/
  bundled : ∃ bundles, Bundled frames bundles ∧ ∀ others, Bundled frames others → others = bundles
  /-- A stream is ended once at most. After that only the rest of the same bundle follows on it, and
  perhaps a reset. -/
  ended : ∀ before f after, frames = before ++ f :: after → f.hasFlag Flag.endStream = true →
    (∀ g ∈ before ++ after, g.stream = f.stream → g.hasFlag Flag.endStream = false) ∧
      ∃ own later, after = own ++ later ∧ Bundle (f :: own) ∧
        (later.filter (·.stream = f.stream) = [] ∨
          ∃ reset, later.filter (·.stream = f.stream) = [reset] ∧ reset.kind = .rstStream)
  /-- Nothing follows a reset. -/
  reset : ∀ before f after, frames = before ++ f :: after → f.kind = .rstStream →
    ∀ g ∈ after, g.stream ≠ f.stream

/-! ## Bundles -/

namespace Bundle

variable {p q : List Frame} {f g : Frame}

theorem ne_nil (bundle : Bundle p) : p ≠ [] := by
  cases bundle <;> exact List.cons_ne_nil _ _

/-- Only the first frame of a bundle ends its stream. -/
theorem opens {own before : List Frame} (bundle : Bundle (before ++ f :: own))
    (ends : f.hasFlag Flag.endStream = true) :
    before = [] ∧ ∀ g ∈ own, g.hasFlag Flag.endStream = false := by
  generalize whole : before ++ f :: own = p at bundle
  cases bundle with
  | block kind continues =>
    cases before with
    | nil =>
      cases whole
      exact ⟨rfl, fun g member => (continues g member).2.2⟩
    | cons opening before =>
      cases whole
      have plain := (continues f (by simp)).2.2
      rw [ends] at plain
      cases plain
  | data | reset =>
    cases before with
    | nil =>
      cases whole
      exact ⟨rfl, by simp⟩
    | cons opening before => simp at whole

/-- A reset is a bundle by itself. -/
theorem alone {own before : List Frame} (bundle : Bundle (before ++ f :: own))
    (kind : f.kind = .rstStream) : own = [] := by
  generalize whole : before ++ f :: own = p at bundle
  cases bundle with
  | block opens continues =>
    have member : f ∈ before ++ f :: own := by simp
    rw [whole] at member
    rcases List.mem_cons.mp member with rfl | member
    · rw [opens] at kind
      cases kind
    · rw [(continues f member).1] at kind
      cases kind
  | data | reset =>
    cases before with
    | nil => exact (List.cons.inj whole).2
    | cons opening before => simp at whole

/-- A reset is a bundle by itself, and does not carry the end flag. -/
theorem eq_of_reset (bundle : Bundle p) (here : f ∈ p) (kind : f.kind = .rstStream) :
    p = [f] ∧ f.hasFlag Flag.endStream = false := by
  cases bundle with
  | block opens continues =>
    rcases List.mem_cons.mp here with rfl | member
    · rw [opens] at kind
      cases kind
    · rw [(continues f member).1] at kind
      cases kind
  | data data =>
    rw [List.mem_singleton.mp here, data] at kind
    cases kind
  | reset _ _ plain =>
    rw [List.mem_singleton.mp here]
    exact ⟨rfl, plain⟩

/-- Two lists are the same up to the first element of a kind. -/
theorem append_inj_of_first {α : Type} {P : α → Bool} {front front' rest rest' : List α}
    {last last' : α} (same : front ++ last :: rest = front' ++ last' :: rest')
    (before : ∀ x ∈ front, P x = false) (here : P last = true)
    (before' : ∀ x ∈ front', P x = false) (here' : P last' = true) :
    front ++ [last] = front' ++ [last'] := by
  induction front generalizing front' with
  | nil =>
    cases front' with
    | nil =>
      cases same
      rfl
    | cons x front' =>
      cases same
      rw [before' last (by simp)] at here
      cases here
  | cons x front ih =>
    cases front' with
    | nil =>
      cases same
      rw [before last' (by simp)] at here'
      cases here'
    | cons y front' =>
      obtain ⟨rfl, left⟩ := List.cons.inj same
      rw [List.cons_append, List.cons_append, ih left
        (fun x member => before x (List.mem_cons_of_mem _ member))
        fun x member => before' x (List.mem_cons_of_mem _ member)]

/-- A sequence of frames begins with one bundle at most. -/
theorem prefix_unique (bundle : Bundle p) (other : Bundle q) {r s : List Frame}
    (same : p ++ r = q ++ s) : p = q := by
  cases bundle with
  | @block opening last continuations front kind _ split ended more =>
    cases other with
    | block kind' _ split' ended' more' =>
      rw [split, split', List.append_assoc, List.append_assoc] at same
      rw [split, split']
      exact append_inj_of_first same more ended more' ended'
    | data kind' =>
      obtain ⟨rfl, -⟩ := List.cons.inj same
      rw [kind] at kind'
      cases kind'
    | reset kind' =>
      obtain ⟨rfl, -⟩ := List.cons.inj same
      rw [kind] at kind'
      cases kind'
  | data kind =>
    cases other with
    | block kind' =>
      obtain ⟨rfl, -⟩ := List.cons.inj same
      rw [kind] at kind'
      cases kind'
    | data | reset => rw [(List.cons.inj same).1]
  | reset kind =>
    cases other with
    | block kind' =>
      obtain ⟨rfl, -⟩ := List.cons.inj same
      rw [kind] at kind'
      cases kind'
    | data | reset => rw [(List.cons.inj same).1]

end Bundle

/-- A sequence of frames is made of bundles in one way at most. -/
theorem flatten_unique {bundles others : List (List Frame)}
    (whole : ∀ bundle ∈ bundles, Bundle bundle) (whole' : ∀ bundle ∈ others, Bundle bundle)
    (same : bundles.flatten = others.flatten) : bundles = others := by
  induction bundles generalizing others with
  | nil =>
    cases others with
    | nil => rfl
    | cons q others =>
      have empty := (List.append_eq_nil_iff.mp same.symm).1
      exact absurd empty (whole' q List.mem_cons_self).ne_nil
  | cons p bundles ih =>
    cases others with
    | nil =>
      have empty := (List.append_eq_nil_iff.mp same).1
      exact absurd empty (whole p List.mem_cons_self).ne_nil
    | cons q others =>
      rw [List.flatten_cons, List.flatten_cons] at same
      obtain rfl := (whole p List.mem_cons_self).prefix_unique (whole' q List.mem_cons_self) same
      rw [ih (fun bundle member => whole bundle (List.mem_cons_of_mem _ member))
        (fun bundle member => whole' bundle (List.mem_cons_of_mem _ member))
        (List.append_cancel_left same)]

/-- Where a frame stands among bundles. -/
theorem split_flatten {bundles : List (List Frame)} {before after : List Frame} {f : Frame}
    (split : bundles.flatten = before ++ f :: after) :
    ∃ front part own back, bundles = front ++ (part ++ f :: own) :: back ∧
      before = front.flatten ++ part ∧ after = own ++ back.flatten := by
  induction bundles generalizing before with
  | nil => simp at split
  | cons p bundles ih =>
    rcases List.append_eq_append_iff.mp split with ⟨rest, rfl, left⟩ | ⟨rest, rfl, left⟩
    · obtain ⟨front, part, own, back, rfl, rfl, rfl⟩ := ih left
      exact ⟨p :: front, part, own, back, rfl, by simp, rfl⟩
    · cases rest with
      | nil =>
        have apart : bundles.flatten = [] ++ f :: after := left.symm
        obtain ⟨front, part, own, back, rfl, whole, rfl⟩ := ih apart
        obtain ⟨none, rfl⟩ := List.append_eq_nil_iff.mp whole.symm
        exact ⟨before :: front, [], own, back, by simp, by simp [none], rfl⟩
      | cons g own =>
        obtain ⟨rfl, rfl⟩ := List.cons.inj left
        exact ⟨[], before, own, bundles, rfl, rfl, rfl⟩

/-! ## Bundles of one stream -/

/-- On one stream nothing follows a reset, and only a reset follows a frame that ends it. -/
def MayPrecede (p q : List Frame) : Prop :=
  ∀ f ∈ p, ∀ g ∈ q, f.stream = g.stream →
    f.kind ≠ .rstStream ∧ (f.hasFlag Flag.endStream = true → g.kind = .rstStream)

/-- Where only resets can follow on a stream, one follows at most. -/
theorem filter_resets {bundles : List (List Frame)} {id : UInt32}
    (whole : ∀ bundle ∈ bundles, Bundle bundle) (law : bundles.Pairwise MayPrecede)
    (resets : ∀ bundle ∈ bundles, ∀ f ∈ bundle, f.stream = id → f.kind = .rstStream) :
    bundles.flatten.filter (·.stream = id) = [] ∨
      ∃ reset, bundles.flatten.filter (·.stream = id) = [reset] ∧ reset.kind = .rstStream := by
  induction bundles with
  | nil => exact .inl rfl
  | cons p bundles ih =>
    obtain ⟨first, law⟩ := List.pairwise_cons.mp law
    have later := ih (fun bundle member => whole bundle (List.mem_cons_of_mem _ member)) law
      fun bundle member => resets bundle (List.mem_cons_of_mem _ member)
    rw [List.flatten_cons, List.filter_append]
    by_cases owned : ∃ f ∈ p, f.stream = id
    · obtain ⟨f, here, rfl⟩ := owned
      have kind := resets p List.mem_cons_self f here rfl
      obtain ⟨rfl, -⟩ := (whole p List.mem_cons_self).eq_of_reset here kind
      have none : bundles.flatten.filter (·.stream = f.stream) = [] := by
        refine List.filter_eq_nil_iff.mpr fun g member same => ?_
        obtain ⟨q, there, member⟩ := List.mem_flatten.mp member
        exact (first q there f here g member (of_decide_eq_true same).symm).1 kind
      exact .inr ⟨f, by simp [none], kind⟩
    · have none : p.filter (·.stream = id) = [] :=
        List.filter_eq_nil_iff.mpr fun g member same => owned ⟨g, member, of_decide_eq_true same⟩
      rwa [none, List.nil_append]

/-- Bundles that may follow each other are regular. -/
theorem regular_of_bundles {bundles : List (List Frame)}
    (whole : ∀ bundle ∈ bundles, Bundle bundle) (law : bundles.Pairwise MayPrecede) :
    Regular bundles.flatten where
  bundled := ⟨bundles, ⟨rfl, whole⟩, fun _ split => flatten_unique split.whole whole split.flatten⟩
  ended before f after split ends := by
    obtain ⟨front, part, own, back, rfl, rfl, rfl⟩ := split_flatten split
    have bundle := whole (part ++ f :: own) (by simp)
    obtain ⟨rfl, plain⟩ := bundle.opens ends
    obtain ⟨-, lawBack, earlier⟩ := List.pairwise_append.mp law
    obtain ⟨later, lawBack⟩ := List.pairwise_cons.mp lawBack
    have resets : ∀ q ∈ back, ∀ g ∈ q, g.stream = f.stream → g.kind = .rstStream :=
      fun q there g member same => (later q there f (by simp) g member same.symm).2 ends
    have wholeBack : ∀ q ∈ back, Bundle q := fun q there => whole q (by simp [there])
    refine ⟨fun g member same => ?_, own, back.flatten, rfl, bundle,
      filter_resets wholeBack lawBack resets⟩
    simp only [List.append_nil, List.mem_append, List.mem_flatten] at member
    rcases member with ⟨q, there, member⟩ | member | ⟨q, there, member⟩
    · refine Bool.eq_false_iff.mpr fun also => ?_
      have reset := (earlier q there _ List.mem_cons_self g member f (by simp) same).2 also
      rw [(bundle.eq_of_reset (by simp) reset).2] at ends
      cases ends
    · exact plain g member
    · exact ((wholeBack q there).eq_of_reset member (resets q there g member same)).2
  reset before f after split kind := by
    obtain ⟨front, part, own, back, rfl, rfl, rfl⟩ := split_flatten split
    obtain rfl := (whole (part ++ f :: own) (by simp)).alone kind
    obtain ⟨-, lawBack, -⟩ := List.pairwise_append.mp law
    intro g member same
    obtain ⟨q, there, member⟩ := List.mem_flatten.mp member
    exact ((List.pairwise_cons.mp lawBack).1 q there f (by simp) g member same.symm).1 kind

end Http2
