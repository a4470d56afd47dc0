import Mathlib.Data.List.Induction
import Mathlib.Logic.Relation

/-!
# Loops that can fail

A loop over a list whose body returns the next state or fails.
-/

namespace Forail.FallibleLoops

variable {State Item Failure : Type*} {Value Result : Type*}
  {body : State → Item → Except Failure State} {start state : State} {items : List Item}

theorem error_ne_ok {failure : Failure} {value : Value} :
    (Except.error failure : Except Failure Value) ≠ .ok value := by
  intro hsame
  cases hsame

theorem bind_eq_ok {first : Except Failure Value} {next : Value → Except Failure Result}
    {result : Result} (hbind : first.bind next = .ok result) :
    ∃ value, first = .ok value ∧ next value = .ok result := by
  cases first with
  | error failure => exact absurd hbind error_ne_ok
  | ok value => exact ⟨value, rfl, hbind⟩

theorem bind_eq_ok_iff {first : Except Failure Value} {next : Value → Except Failure Result}
    {result : Result} :
    first.bind next = .ok result ↔ ∃ value, first = .ok value ∧ next value = .ok result := by
  refine ⟨bind_eq_ok, fun hvalue => ?_⟩
  obtain ⟨value, rfl, hnext⟩ := hvalue
  exact hnext

theorem mapM_eq_ok {Result : Type} {items : List Item} {body : Item → Except Failure Result}
    {result : Item → Result} (hbody : ∀ item ∈ items, body item = .ok (result item)) :
    items.mapM body = .ok (items.map result) := by
  induction items with
  | nil => rfl
  | cons item items ih =>
    obtain ⟨hitem, hitems⟩ := List.forall_mem_cons.mp hbody
    rw [List.mapM_cons, hitem, ih hitems]
    rfl

theorem mem_of_mapM {Result : Type} {results : List Result}
    {body : Item → Except Failure Result} (hloop : items.mapM body = .ok results) :
    (∀ item ∈ items, ∃ result ∈ results, body item = .ok result) ∧
      ∀ result ∈ results, ∃ item ∈ items, body item = .ok result := by
  induction items generalizing results with
  | nil =>
    obtain rfl : [] = results := Except.ok.inj hloop
    exact ⟨fun _ hitem => absurd hitem List.not_mem_nil,
      fun _ hresult => absurd hresult List.not_mem_nil⟩
  | cons item items ih =>
    rw [List.mapM_cons] at hloop
    obtain ⟨result, hresult, hrest⟩ := bind_eq_ok hloop
    obtain ⟨others, hothers, hcons⟩ := bind_eq_ok hrest
    obtain rfl : result :: others = results := Except.ok.inj hcons
    obtain ⟨hitems, hresults⟩ := ih hothers
    constructor
    · intro other hother
      rcases List.mem_cons.mp hother with rfl | hother
      · exact ⟨result, List.mem_cons_self, hresult⟩
      · obtain ⟨found, hfound, hbody⟩ := hitems other hother
        exact ⟨found, List.mem_cons_of_mem _ hfound, hbody⟩
    · intro found hfound
      rcases List.mem_cons.mp hfound with rfl | hfound
      · exact ⟨item, List.mem_cons_self, hresult⟩
      · obtain ⟨other, hother, hbody⟩ := hresults found hfound
        exact ⟨other, List.mem_cons_of_mem _ hother, hbody⟩

theorem foldlM_invariant (invariant : List Item → State → Prop) (hstart : invariant [] start)
    (hbody : ∀ before item after, items = before ++ item :: after → ∀ state state',
      invariant before state → body state item = .ok state' → invariant (before ++ [item]) state')
    (hloop : items.foldlM body start = .ok state) : invariant items state := by
  induction items using List.reverseRecOn generalizing state with
  | nil =>
    obtain rfl : start = state := by simpa [pure, Except.pure] using hloop
    exact hstart
  | append_singleton items item ih =>
    rw [List.foldlM_append] at hloop
    obtain ⟨middle, hmiddle, hlast⟩ := bind_eq_ok hloop
    rw [List.foldlM_cons] at hlast
    obtain ⟨last, htaken, hend⟩ := bind_eq_ok hlast
    obtain rfl : last = state := by simpa [pure, Except.pure] using hend
    apply hbody items item [] rfl middle last _ htaken
    apply ih _ hmiddle
    intro before other after hsplit
    exact hbody before other (after ++ [item]) (by rw [hsplit, List.append_assoc]; rfl)

theorem foldlM_keeps (kept : State → Prop) (hstart : kept start)
    (hbody : ∀ state item state', kept state → body state item = .ok state' → kept state')
    (hloop : items.foldlM body start = .ok state) : kept state :=
  foldlM_invariant (fun _ => kept) hstart
    (fun _ item _ _ state state' hkept htaken => hbody state item state' hkept htaken) hloop

theorem foldlM_adds {Fact : Type*} (kept : State → Prop) (holds : State → Fact → Prop)
    (adds : Item → Fact → Prop) (hstart : kept start)
    (hbody : ∀ item ∈ items, ∀ state state', kept state → body state item = .ok state' →
      kept state' ∧ ∀ fact, holds state' fact ↔ holds state fact ∨ adds item fact)
    (hloop : items.foldlM body start = .ok state) :
    kept state ∧ ∀ fact, holds state fact ↔ holds start fact ∨ ∃ item ∈ items, adds item fact := by
  apply foldlM_invariant (fun done state => kept state ∧ ∀ fact,
    holds state fact ↔ holds start fact ∨ ∃ item ∈ done, adds item fact) ⟨hstart, by simp⟩ _ hloop
  rintro before item after hsplit state state' ⟨hkept, hfacts⟩ htaken
  have hmem : item ∈ items := by rw [hsplit]; simp
  obtain ⟨hkept', hfacts'⟩ := hbody item hmem state state' hkept htaken
  refine ⟨hkept', fun fact => ?_⟩
  rw [hfacts', hfacts, or_assoc]
  apply or_congr_right
  constructor
  · rintro (⟨other, hother, hadds⟩ | hadds)
    · exact ⟨other, List.mem_append_left _ hother, hadds⟩
    · exact ⟨item, List.mem_append_right _ (List.mem_singleton_self _), hadds⟩
  · rintro ⟨other, hother, hadds⟩
    rcases List.mem_append.mp hother with hbefore | hlast
    · exact Or.inl ⟨other, hbefore, hadds⟩
    · exact Or.inr (List.mem_singleton.mp hlast ▸ hadds)

theorem steps_keep {step : State → State → Prop} {state' : State} (kept : State → Prop)
    (hstep : ∀ state state', step state state' → kept state → kept state')
    (hsteps : Relation.ReflTransGen step state state') (hkept : kept state) : kept state' := by
  induction hsteps with
  | refl => exact hkept
  | tail _ hlast ih => exact hstep _ _ hlast ih

theorem foldlM_steps {step : State → State → Prop}
    (hbody : ∀ item ∈ items, ∀ state state', body state item = .ok state' →
      Relation.ReflTransGen step state state')
    (hloop : items.foldlM body start = .ok state) : Relation.ReflTransGen step start state := by
  apply foldlM_invariant (fun _ state => Relation.ReflTransGen step start state) .refl _ hloop
  intro before item after hsplit state state' hsteps htaken
  have hmem : item ∈ items := by rw [hsplit]; simp
  exact hsteps.trans (hbody item hmem state state' htaken)

/-- Two loops over the same items, whose bodies succeed on related states and relate what they
give. -/
theorem foldlM_related {State' : Type*} {body' : State' → Item → Except Failure State'}
    {start' : State'} (related : State → State' → Prop)
    (hbody : ∀ item ∈ items, ∀ state state', related state state' → ∃ next next',
      body state item = .ok next ∧ body' state' item = .ok next' ∧ related next next')
    (hstart : related start start') :
    ∃ done done', items.foldlM body start = .ok done ∧ items.foldlM body' start' = .ok done' ∧
      related done done' := by
  induction items generalizing start start' with
  | nil => exact ⟨start, start', rfl, rfl, hstart⟩
  | cons item items ih =>
    obtain ⟨hitem, hitems⟩ := List.forall_mem_cons.mp hbody
    obtain ⟨next, next', hnext, hnext', hrelated⟩ := hitem start start' hstart
    rw [List.foldlM_cons, List.foldlM_cons, hnext, hnext']
    exact ih hitems hrelated

end Forail.FallibleLoops
