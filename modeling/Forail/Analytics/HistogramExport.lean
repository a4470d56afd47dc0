import Forail.Analytics.MetricIncrements

/-!
# The two exporters of a histogram

Both render what a histogram stored in Redis.  The text adds the counts of the buckets up, the
collector hands them on as they are.
-/

namespace Forail.SubsystemMetrics

/-- What `HistogramM.decode` reads, as `load_other_metrics` gives it back for a node. -/
structure Entry where
  counts : List ℚ
  inf : ℚ
  sum : ℚ

/-- The keys of a dictionary stand in the order in which they were added first. -/
def HistogramM.decode (histogram : HistogramM) (hash : Field → ℚ) : Entry where
  counts := histogram.buckets.eraseDups.map fun bound =>
    hash (histogram.bucketsToKeys bound).field
  inf := hash histogram.inf.field
  sum := hash histogram.sum.field

/-- The lines for a node, after the comments; the bound of `+Inf` is `none`. -/
inductive Line
  | bucket (le : Option ℚ) (node : String) (count : ℚ)
  | count (node : String) (count : ℚ)
  | sum (node : String) (sum : ℚ)

def HistogramM.toPrometheus (histogram : HistogramM) (instanceData : List (String × Entry)) :
    List Line :=
  instanceData.flatMap fun (node, entry) =>
    (histogram.buckets.zipIdx.map fun (bound, i) =>
      Line.bucket (some bound) node (entry.counts.take (i + 1)).sum) ++
    [.bucket none node entry.inf, .count node entry.inf, .sum node entry.sum]

structure HistogramMetricFamily where
  buckets : List (Option ℚ × ℚ)
  sumValue : ℚ

def HistogramM.collect (histogram : HistogramM) (entry : Entry) : HistogramMetricFamily where
  buckets := (histogram.buckets.zip entry.counts).map fun (bound, count) => (some bound, count)
  sumValue := entry.sum

/-! ## Observations and stores -/

inductive Step
  | observe (value : ℚ)
  | store

def Step.take (state : HistogramM × (Field → ℚ)) : Step → HistogramM × (Field → ℚ)
  | .observe value => (state.1.observe value, state.2)
  | .store => (state.1.storeValue.1, state.1.storeValue.2.foldl Command.apply state.2)

def runSteps (name : String) (buckets : List ℚ) (steps : List Step) : HistogramM × (Field → ℚ) :=
  steps.foldl Step.take (.new name buckets, fun _ => 0)

def Step.note (observed : List ℚ × List ℚ) : Step → List ℚ × List ℚ
  | .observe value => (observed.1, observed.2 ++ [value])
  | .store => (observed.1 ++ observed.2, [])

def observations (steps : List Step) : List ℚ × List ℚ := steps.foldl Step.note ([], [])

/-! ## What the exporters should give -/

def CountsBuckets (count : Option ℚ → ℚ → Prop) (buckets observed : List ℚ) : Prop :=
  ∀ bound ∈ buckets, ∀ value, count (some bound) value ↔ value = observed.countP (· ≤ bound)

def CountsAll (count : Option ℚ → ℚ → Prop) (observed : List ℚ) : Prop :=
  ∀ value, count none value ↔ value = observed.length

def textCount (lines : List Line) (node : String) (le : Option ℚ) (value : ℚ) : Prop :=
  .bucket le node value ∈ lines

def familyCount (family : HistogramMetricFamily) (le : Option ℚ) (value : ℚ) : Prop :=
  (le, value) ∈ family.buckets

structure ExportersAgree (lines : List Line) (family : HistogramMetricFamily) (node : String)
    (buckets observed : List ℚ) : Prop where
  textBuckets : CountsBuckets (textCount lines node) buckets observed
  familyBuckets : CountsBuckets (familyCount family) buckets observed
  textInf : CountsAll (textCount lines node) observed
  familyInf : CountsAll (familyCount family) observed
  sum : ∀ value, .sum node value ∈ lines ↔ value = family.sumValue

/-! ## What a histogram holds -/

structure Named (name : String) (buckets : List ℚ) (histogram : HistogramM) : Prop where
  buckets : histogram.buckets = buckets
  keys : ∀ bound, (histogram.bucketsToKeys bound).field = .bucket name bound
  inf : histogram.inf.field = .inf name
  sum : histogram.sum.field = .sum name

variable {name : String} {buckets : List ℚ} {histogram : HistogramM} {hash : Field → ℚ}

theorem named_new : Named name buckets (.new name buckets) :=
  ⟨rfl, fun _ => rfl, rfl, rfl⟩

theorem field_storeValue (metric : BaseM) : metric.storeValue.1.field = metric.field := by
  rw [BaseM.storeValue]
  split <;> rfl

theorem field_update {keys : ℚ → BaseM} {key : BaseM} {bound : ℚ}
    (hkey : key.field = (keys bound).field) (other : ℚ) :
    (Function.update keys bound key other).field = (keys other).field := by
  rw [Function.update_apply]
  split
  · next hsame => rw [hkey, hsame]
  · rfl

theorem field_storeKeys (stored : List ℚ) (keys : ℚ → BaseM) (bound : ℚ) :
    ((HistogramM.storeKeys stored keys).1 bound).field = (keys bound).field := by
  induction stored generalizing keys with
  | nil => rfl
  | cons first stored ih =>
    rw [HistogramM.storeKeys]
    exact (ih _).trans (field_update (field_storeValue _) bound)

theorem Named.take (hnamed : Named name buckets histogram) (step : Step) :
    Named name buckets (step.take (histogram, hash)).1 := by
  cases step with
  | observe value =>
    refine ⟨hnamed.buckets, fun bound => ?_, hnamed.inf, hnamed.sum⟩
    rw [← hnamed.keys bound, Step.take, HistogramM.observe]
    dsimp only
    cases histogram.buckets.find? (value ≤ ·) with
    | none => rfl
    | some first =>
      have hfield : ((histogram.bucketsToKeys first).inc 1).field =
        (histogram.bucketsToKeys first).field := rfl
      exact field_update hfield bound
  | store =>
    refine ⟨hnamed.buckets, fun bound => ?_, ?_, ?_⟩
    · exact (field_storeKeys _ _ bound).trans (hnamed.keys bound)
    · exact (field_storeValue _).trans hnamed.inf
    · exact (field_storeValue _).trans hnamed.sum

theorem Named.observed_eq (hnamed : Named name buckets histogram) (field : Field) (value : ℚ) :
    histogram.observed field value = (HistogramM.new name buckets).observed field value := by
  simp only [HistogramM.observed, hnamed.buckets, hnamed.keys, hnamed.inf, hnamed.sum]
  rfl

theorem runSteps_spec (name : String) (buckets : List ℚ) (steps : List Step) (field : Field) :
    Named name buckets (runSteps name buckets steps).1 ∧
      (runSteps name buckets steps).1.Idle ∧
      (runSteps name buckets steps).2 field = ((observations steps).1.map
        ((HistogramM.new name buckets).observed field)).sum ∧
      (runSteps name buckets steps).1.unsaved field = ((observations steps).2.map
        ((HistogramM.new name buckets).observed field)).sum := by
  induction steps using List.reverseRecOn with
  | nil =>
    have hnew : ∀ field, ({ field } : BaseM).currentValue = 0 := fun _ => rfl
    refine ⟨named_new, ⟨fun _ _ => rfl, fun _ => rfl, fun _ => rfl⟩, rfl, ?_⟩
    rw [runSteps, List.foldl_nil, HistogramM.unsaved, HistogramM.new,
      unsaved_of_zero field (hnew _), unsaved_of_zero field (hnew _), add_zero, add_zero]
    exact Finset.sum_eq_zero fun bound _ => unsaved_of_zero field (hnew _)
  | append_singleton steps step ih =>
    obtain ⟨hnamed, hidle, hsaved, hpending⟩ := ih
    rw [runSteps, observations, List.foldl_append, List.foldl_append]
    change Named name buckets (step.take (runSteps name buckets steps)).1 ∧
      (step.take (runSteps name buckets steps)).1.Idle ∧
      (step.take (runSteps name buckets steps)).2 field = _ ∧
      (step.take (runSteps name buckets steps)).1.unsaved field = _
    refine ⟨hnamed.take step, ?_⟩
    cases step with
    | observe value =>
      refine ⟨hidle.observe value, hsaved, ?_⟩
      rw [Step.take, unsaved_observe, hpending, hnamed.observed_eq]
      simp [observations, Step.note]
    | store =>
      have hcounts : (Metric.histogram (runSteps name buckets steps).1).Counts field := hidle
      obtain ⟨hidle', hzero, hkeeps⟩ := hcounts.storeValue
      have hqueued := unsaved_storeHistogram field (runSteps name buckets steps).1
      rw [(hidle.storeValue field).1, zero_add, hpending] at hqueued
      refine ⟨hidle', ?_, hzero⟩
      have happlied := apply_keeps hkeeps (runSteps name buckets steps).2
      change (List.foldl Command.apply _ (runSteps name buckets steps).1.storeValue.2) field = _
      rw [show (Metric.histogram (runSteps name buckets steps).1).storeValue.2 =
        (runSteps name buckets steps).1.storeValue.2 from rfl] at happlied
      rw [happlied, hsaved, hqueued]
      simp [observations, Step.note]

/-! ## Counts -/

theorem observed_inf (value : ℚ) :
    (HistogramM.new name buckets).observed (.inf name) value = 1 := by
  cases hfind : buckets.find? (value ≤ ·) <;> simp [HistogramM.observed, HistogramM.new, hfind]

theorem observed_sum (value : ℚ) :
    (HistogramM.new name buckets).observed (.sum name) value = value := by
  cases hfind : buckets.find? (value ≤ ·) <;> simp [HistogramM.observed, HistogramM.new, hfind]

theorem observed_bucket (bound value : ℚ) :
    (HistogramM.new name buckets).observed (.bucket name bound) value =
      if buckets.find? (value ≤ ·) = some bound then 1 else 0 := by
  cases hfind : buckets.find? (value ≤ ·) <;> simp [HistogramM.observed, HistogramM.new, hfind]

theorem sum_ite_eq_countP (values : List ℚ) (property : ℚ → Prop) [DecidablePred property] :
    (values.map fun value => if property value then (1 : ℚ) else 0).sum =
      values.countP (property ·) := by
  induction values with
  | nil => rfl
  | cons value values ih =>
    rw [List.map_cons, List.sum_cons, ih, List.countP_cons]
    by_cases hvalue : property value
    · simp [hvalue, add_comm]
    · simp [hvalue]

/-- Of ascending bounds, the first ones up to a bound have the value once when it is not
greater. -/
theorem sum_first_buckets {buckets : List ℚ} (hsorted : buckets.Pairwise (· < ·)) (value : ℚ)
    {i : ℕ} {bound : ℚ} (hbound : buckets[i]? = some bound) :
    ((buckets.take (i + 1)).map fun other =>
        if buckets.find? (value ≤ ·) = some other then (1 : ℚ) else 0).sum =
      if value ≤ bound then 1 else 0 := by
  induction buckets generalizing i with
  | nil => cases hbound
  | cons first buckets ih =>
    obtain ⟨hfirst, hsorted⟩ := List.pairwise_cons.mp hsorted
    rw [List.take_succ_cons, List.map_cons, List.sum_cons]
    by_cases hvalue : value ≤ first
    · rw [List.find?_cons_of_pos (by simpa using hvalue)]
      have hothers : ((buckets.take i).map fun other =>
          if some first = some other then (1 : ℚ) else 0).sum = 0 := by
        apply List.sum_eq_zero
        intro count hcount
        obtain ⟨other, hother, rfl⟩ := List.mem_map.mp hcount
        have hless := hfirst other (List.mem_of_mem_take hother)
        rw [if_neg fun hsame => hless.ne (Option.some.inj hsame)]
      have hle : first ≤ bound := by
        cases i with
        | zero => exact (Option.some.inj hbound).le
        | succ i => exact (hfirst bound (List.mem_of_getElem? hbound)).le
      rw [hothers, if_pos rfl, if_pos (hvalue.trans hle), add_zero]
    · rw [List.find?_cons_of_neg (by simpa using hvalue)]
      have hnone : buckets.find? (value ≤ ·) ≠ some first := fun hfind =>
        (hfirst first (List.mem_of_find?_eq_some hfind)).false
      rw [if_neg hnone, zero_add]
      cases i with
      | zero =>
        obtain rfl : first = bound := Option.some.inj hbound
        rw [if_neg hvalue, List.take_zero]
        rfl
      | succ i => exact ih hsorted hbound

theorem eraseDups_of_nodup {values : List ℚ} (hnodup : values.Nodup) : values.eraseDups = values := by
  induction values with
  | nil => rfl
  | cons value values ih =>
    obtain ⟨hnew, hnodup⟩ := List.nodup_cons.mp hnodup
    rw [List.eraseDups_cons, List.filter_eq_self.mpr, ih hnodup]
    intro other hother
    simp only [Bool.not_eq_true', beq_eq_false_iff_ne]
    exact fun hsame => hnew (hsame ▸ hother)

section

variable (name) (buckets) (steps : List Step)

def exportedEntry : Entry :=
  (runSteps name buckets steps).1.decode (runSteps name buckets steps).2

def exportedText (node : String) : List Line :=
  (runSteps name buckets steps).1.toPrometheus [(node, exportedEntry name buckets steps)]

def exportedFamily : HistogramMetricFamily :=
  (runSteps name buckets steps).1.collect (exportedEntry name buckets steps)

end

variable {steps : List Step} {node : String}

theorem exportedEntry_eq (hsorted : buckets.Pairwise (· < ·)) :
    exportedEntry name buckets steps =
      ⟨buckets.map fun bound => ((observations steps).1.countP
          (fun value => buckets.find? (value ≤ ·) = some bound) : ℚ),
        (observations steps).1.length, (observations steps).1.sum⟩ := by
  have hspec := runSteps_spec name buckets steps
  have hnamed := (hspec (.inf name)).1
  rw [exportedEntry, HistogramM.decode, hnamed.buckets,
    eraseDups_of_nodup (hsorted.imp fun hless => hless.ne), hnamed.inf, hnamed.sum]
  congr 1
  · refine List.map_congr_left fun bound _ => ?_
    rw [hnamed.keys, (hspec _).2.2.1, funext (observed_bucket bound), sum_ite_eq_countP]
  · rw [(hspec _).2.2.1, funext observed_inf]
    simp
  · rw [(hspec _).2.2.1, funext observed_sum, List.map_id']

theorem familyCount_iff (hsorted : buckets.Pairwise (· < ·)) {bound value : ℚ} :
    familyCount (exportedFamily name buckets steps) (some bound) value ↔ bound ∈ buckets ∧
      value = (observations steps).1.countP fun value => buckets.find? (value ≤ ·) = some bound := by
  have hnamed := (runSteps_spec name buckets steps (.inf name)).1
  rw [familyCount, exportedFamily, HistogramM.collect, exportedEntry_eq hsorted, hnamed.buckets]
  dsimp only
  rw [← List.map_prod_left_eq_zip, List.map_map, List.mem_map]
  constructor
  · rintro ⟨other, hother, hsame⟩
    cases hsame
    exact ⟨hother, rfl⟩
  · rintro ⟨hbound, rfl⟩
    exact ⟨bound, hbound, rfl⟩

theorem sum_counts (hsorted : buckets.Pairwise (· < ·)) (values : List ℚ) {i : ℕ} {bound : ℚ}
    (hbound : buckets[i]? = some bound) :
    ((buckets.take (i + 1)).map fun other => (values.countP
        (fun value => buckets.find? (value ≤ ·) = some other) : ℚ)).sum =
      values.countP (· ≤ bound) := by
  induction values with
  | nil => simp
  | cons value values ih =>
    simp only [List.countP_cons, decide_eq_true_eq, Nat.cast_add, Nat.cast_ite, Nat.cast_one,
      Nat.cast_zero]
    rw [List.sum_map_add, ih, sum_first_buckets hsorted value hbound]

theorem mem_text_iff (hsorted : buckets.Pairwise (· < ·)) {line : Line} :
    line ∈ exportedText name buckets steps node ↔
      (∃ bound ∈ buckets, line = .bucket (some bound) node
        ((observations steps).1.countP (· ≤ bound))) ∨
      line = .bucket none node (observations steps).1.length ∨
      line = .count node (observations steps).1.length ∨
      line = .sum node (observations steps).1.sum := by
  have hnamed := (runSteps_spec name buckets steps (.inf name)).1
  rw [exportedText, HistogramM.toPrometheus, exportedEntry_eq hsorted, hnamed.buckets]
  simp only [List.flatMap_cons, List.flatMap_nil, List.append_nil, List.mem_append, List.mem_map,
    List.mem_cons, List.not_mem_nil, or_false]
  refine or_congr_left ⟨?_, ?_⟩
  · rintro ⟨⟨bound, i⟩, hmem, rfl⟩
    have hbound := List.mem_zipIdx_iff_getElem?.mp hmem
    refine ⟨bound, List.mem_of_getElem? hbound, ?_⟩
    rw [← List.map_take, sum_counts hsorted _ hbound]
  · rintro ⟨bound, hmem, rfl⟩
    obtain ⟨i, hbound⟩ := List.mem_iff_getElem?.mp hmem
    refine ⟨(bound, i), List.mem_zipIdx_iff_getElem?.mpr hbound, ?_⟩
    rw [← List.map_take, sum_counts hsorted _ hbound]

/-- Counts of values with a property are those of a weaker one exactly when no other value has
the weaker one. -/
theorem countP_eq_iff {values : List ℚ} {strong weak : ℚ → Prop} [DecidablePred strong]
    [DecidablePred weak] (hweak : ∀ value, strong value → weak value) :
    values.countP (weak ·) = values.countP (strong ·) ↔
      ∀ value ∈ values, weak value → strong value := by
  induction values with
  | nil => simp
  | cons value values ih =>
    have hle : values.countP (strong ·) ≤ values.countP (weak ·) :=
      List.countP_mono_left fun value _ hstrong => by simpa using hweak value (by simpa using hstrong)
    rw [List.forall_mem_cons, ← ih, List.countP_cons, List.countP_cons]
    by_cases hstrong : strong value
    · simp [hstrong, hweak value hstrong]
    · by_cases hvalue : weak value
      · simp only [hstrong, hvalue, decide_true, decide_false, if_true, Bool.false_eq_true, if_false,
          true_imp_iff, false_and, iff_false]
        omega
      · simp [hstrong, hvalue]

theorem find?_eq_some_iff (hsorted : buckets.Pairwise (· < ·)) {bound : ℚ} (hbound : bound ∈ buckets)
    (value : ℚ) : buckets.find? (value ≤ ·) = some bound ↔
      value ≤ bound ∧ ∀ other ∈ buckets, other < bound → ¬ value ≤ other := by
  induction buckets with
  | nil => exact absurd hbound List.not_mem_nil
  | cons first buckets ih =>
    obtain ⟨hfirst, hsorted⟩ := List.pairwise_cons.mp hsorted
    rw [List.forall_mem_cons]
    by_cases hvalue : value ≤ first
    · rw [List.find?_cons_of_pos (by simpa using hvalue), Option.some.injEq]
      constructor
      · rintro rfl
        exact ⟨hvalue, fun hless => absurd hless (lt_irrefl _),
          fun other hother hless => absurd hless (hfirst other hother).asymm⟩
      · rintro ⟨-, hless, -⟩
        exact ((List.mem_cons.mp hbound).resolve_right fun hmem =>
          hless (hfirst bound hmem) hvalue).symm
    · rw [List.find?_cons_of_neg (by simpa using hvalue)]
      cases List.mem_cons.mp hbound with
      | inl hsame =>
        subst hsame
        exact iff_of_false (fun hfind => (hfirst bound (List.mem_of_find?_eq_some hfind)).false)
          fun hle => hvalue hle.1
      | inr hmem =>
        rw [ih hsorted hmem]
        exact and_congr_right fun _ => (and_iff_right fun _ => hvalue).symm

/-- The collector gives no count for `+Inf`.  Where the bounds ascend, the text is right, and the
counts of the collector are right exactly when no stored observation is up to two bounds. -/
theorem exporters_disagree (name : String) (buckets : List ℚ) (steps : List Step) (node : String) :
    ¬ ExportersAgree (exportedText name buckets steps node) (exportedFamily name buckets steps)
        node buckets (observations steps).1 ∧
      (buckets.Pairwise (· < ·) →
        (CountsBuckets (textCount (exportedText name buckets steps node) node) buckets
            (observations steps).1 ∧
          CountsAll (textCount (exportedText name buckets steps node) node)
            (observations steps).1 ∧
          ∀ value, .sum node value ∈ exportedText name buckets steps node ↔
            value = (exportedFamily name buckets steps).sumValue) ∧
        (CountsBuckets (familyCount (exportedFamily name buckets steps)) buckets
            (observations steps).1 ↔
          ∀ value ∈ (observations steps).1, ∀ bound ∈ buckets, ∀ bound' ∈ buckets,
            value ≤ bound → value ≤ bound' → bound = bound')) := by
  constructor
  · intro hagree
    have hinf := (hagree.familyInf _).mpr rfl
    rw [familyCount, exportedFamily, HistogramM.collect, List.mem_map] at hinf
    obtain ⟨pair, -, hpair⟩ := hinf
    cases hpair
  · intro hsorted
    refine ⟨⟨?_, ?_, ?_⟩, ?_⟩
    · intro bound hbound value
      rw [textCount, mem_text_iff hsorted]
      simp [hbound]
    · intro value
      rw [textCount, mem_text_iff hsorted]
      simp
    · intro value
      rw [mem_text_iff hsorted, exportedFamily, HistogramM.collect, exportedEntry_eq hsorted]
      simp
    · have hcounts : CountsBuckets (familyCount (exportedFamily name buckets steps)) buckets
          (observations steps).1 ↔ ∀ bound ∈ buckets, ∀ value ∈ (observations steps).1,
            value ≤ bound → ∀ other ∈ buckets, other < bound → ¬ value ≤ other := by
        refine forall₂_congr fun bound hbound => ?_
        have hsame : (∀ value, familyCount (exportedFamily name buckets steps) (some bound) value ↔
            value = (observations steps).1.countP (· ≤ bound)) ↔
            (observations steps).1.countP (· ≤ bound) = (observations steps).1.countP
              fun value => buckets.find? (value ≤ ·) = some bound := by
          simp only [familyCount_iff hsorted, hbound, true_and]
          constructor
          · intro hvalue
            exact_mod_cast (hvalue _).mpr rfl
          · intro hcount value
            rw [hcount]
        rw [hsame, countP_eq_iff fun value hfind =>
          ((find?_eq_some_iff hsorted hbound value).mp hfind).1]
        refine forall₂_congr fun value _ => ?_
        rw [find?_eq_some_iff hsorted hbound]
        exact ⟨fun hfirst hle => (hfirst hle).2, fun hnone hle => ⟨hle, hnone hle⟩⟩
      rw [hcounts]
      constructor
      · intro hnone value hvalue bound hbound bound' hbound' hle hle'
        rcases lt_trichotomy bound bound' with hless | hsame | hgreater
        · exact absurd hle (hnone bound' hbound' value hvalue hle' bound hbound hless)
        · exact hsame
        · exact absurd hle' (hnone bound hbound value hvalue hle bound' hbound' hgreater)
      · intro honly bound hbound value hvalue hle other hother hless hle'
        exact hless.ne (honly value hvalue other hother bound hbound hle' hle)

theorem second_bucket_missed : ¬ ∀ (name : String) (buckets : List ℚ) (steps : List Step)
    (node : String), ExportersAgree (exportedText name buckets steps node)
      (exportedFamily name buckets steps) node buckets (observations steps).1 := by
  intro hagree
  have hcounts := (hagree "batch" [1, 2] [.observe 1, .observe 2, .store] "node").familyBuckets
  have hmem : ((some 2, 1) : Option ℚ × ℚ) ∈
      (exportedFamily "batch" [1, 2] [.observe 1, .observe 2, .store]).buckets := by
    decide +kernel
  have hsame := (hcounts 2 (by decide) 1).mp hmem
  exact absurd hsame (by decide +kernel)

end Forail.SubsystemMetrics
