import Forail.Conf.SettingsOperations

/-!
# Safe reads of encrypted settings

Every program meets the contract.  A read gives what it has found in the memory of the process,
in the cache or in the table, and none of these is older than the timeouts.
-/

namespace Forail.EncryptedSettings

open Forail.Interleaving

variable {Name Process : Type} [DecidableEq Name]
  {registry : Registry Name} {state state' : State Name Process} {name : Name} {value : String}
  {time : ℕ}

/-! ## Texts that are held -/

theorem plain_of_held (hinvariant : Invariant registry state)
    (hheld : Held registry state name value) : Plain value := by
  rcases hheld with rfl | ⟨-, hstored⟩
  · decide
  · exact (hinvariant.table.stored name value hstored).1

theorem validate_of_held (hblank : registry.Blank) (hinvariant : Invariant registry state)
    (hheld : Held registry state name value) : registry.validate name (.text value) = some value := by
  rcases hheld with rfl | ⟨-, hstored⟩
  · exact hblank.blank name
  · exact (hinvariant.table.stored name value hstored).2

theorem encryptField_of_plain (hplain : Plain value) (hne : value ≠ "") (id : Option ℕ) :
    encryptField id value = .token id value := by
  rw [encryptField, if_neg]
  rintro (hempty | hmark)
  · exact hne hempty
  · exact absurd (hplain.1.symm.trans hmark) Bool.false_ne_true

omit [DecidableEq Name] in
theorem decryptField_encryptField (hplain : Plain value) {id id' : Option ℕ}
    (hid : value = "" ∨ id' = id) :
    decryptField registry id' (encryptField id value) = .ok value := by
  by_cases hempty : value = ""
  · subst hempty
    rfl
  · rw [encryptField_of_plain hplain hempty, decryptField,
      if_pos ((hid.resolve_left hempty).symm)]

omit [DecidableEq Name] in
theorem default?_eq (hblank : registry.Blank) (name : Name) :
    registry.default? name = some "" := by
  rw [Registry.default?, hblank.fieldDefault, Option.bind_some, hblank.blank]

theorem readCacheValue_of_plain (hplain : Plain value) :
    readCacheValue value = some (.text value) := by
  have hmarkers := hplain.2
  simp only [List.mem_cons, List.not_mem_nil, or_false, not_or] at hmarkers
  rw [readCacheValue, if_neg hmarkers.1, if_neg hmarkers.2.1, if_neg hmarkers.2.2]

def Found (registry : Registry Name) (name : Name) (time : ℕ) (state : State Name Process)
    (value : String) : Prop :=
  Held registry state name value ∧ AsOf registry state name time value

theorem Found.stays (hfound : Found registry name time state value) (htime : time ≤ state.now) :
    (contract Process registry).Stays (Found registry name time) state value :=
  fun _ hlater _ => ⟨hfound.1.later hlater, hfound.2.later htime hlater⟩

theorem Found.mono {time' : ℕ} (hfound : Found registry name time state value)
    (htime : time' ≤ time) : Found registry name time' state value :=
  ⟨hfound.1, hfound.2.mono htime⟩

/-! ## The cache -/

variable [DecidableEq Process] (process : Process)

theorem objId_yields (decrypting : Option Cipher) :
    (objId registry name decrypting).Yields (contract Process registry) (execute process)
      (fun _ _ => True) state := by
  refine Fallible.meets_perform_bind fun _ _ _ _ => ⟨trivial, ?_⟩
  split
  · exact Fallible.yields_pure fun _ _ _ => trivial
  · rw [getSettingFromDb]
    split
    · exact Fallible.yields_pure fun _ _ _ => trivial
    · exact Fallible.meets_perform_bind fun _ _ _ _ =>
        ⟨trivial, Fallible.yields_pure fun _ _ _ => trivial⟩

theorem objId_token_yields (hreadOnly : registry.readOnly name = false) {pk : Option ℕ} :
    (objId registry name (some (.token pk value))).Yields (contract Process registry)
      (execute process) (fun _ id => id = pk) state := by
  refine Fallible.meets_perform_bind fun _ _ _ hallowed => ⟨trivial, ?_⟩
  split
  · next id hid => exact Fallible.yields_pure fun _ _ _ => hallowed id hid
  · rw [getSettingFromDb, hreadOnly]
    exact Fallible.meets_perform_bind fun _ _ _ hfirst =>
      ⟨trivial, Fallible.yields_pure fun _ _ _ => hfirst⟩

theorem objId_held_yields (hinvariant : Invariant registry state)
    (hheld : Held registry state name value) (id : Option ℕ) :
    (objId registry name (some (encryptField id value))).Yields (contract Process registry)
      (execute process) (fun _ id' => value = "" ∨ id' = id) state := by
  by_cases hempty : value = ""
  · exact (objId_yields process _).mono fun _ _ _ => .inl hempty
  · rw [encryptField_of_plain (plain_of_held hinvariant hheld) hempty]
    exact (objId_token_yields process (hheld.resolve_left hempty).1).mono
      fun _ _ hid => .inr hid

theorem cacheGet_yields (hblank : registry.Blank) (htime : time ≤ state.now) :
    (cacheGet registry name).Yields (contract Process registry) (execute process)
      (fun state result => ∀ value ∈ result,
        Found registry name (time - settingCacheTimeout) state value) state := by
  have hsound := contract_sound hblank process
  refine Fallible.meets_perform_bind fun state₁ hlater hinvariant _ => ⟨trivial, ?_⟩
  split
  · exact Fallible.yields_pure fun _ _ _ value hvalue => absurd hvalue (by simp)
  · next cipher hcipher =>
    obtain ⟨entry, hentry, hread⟩ := Option.bind_eq_some_iff.mp hcipher
    obtain ⟨hexpires, hsome⟩ := Option.ite_none_right_eq_some.mp hread
    obtain rfl := Option.some.inj hsome
    obtain ⟨hlimit, id, plain, hvalue, hheld, hasOf⟩ := hinvariant.values name entry hentry
    rw [hvalue]
    refine Fallible.Yields.bind hsound (objId_held_yields process hinvariant hheld id) ?_
    intro state₂ id' hlater₂ hinvariant₂ hid
    have hplain := plain_of_held hinvariant hheld
    rw [decryptField_encryptField hplain (hid state₂ (hsound.refl _) hinvariant₂)]
    have hnow : state.now ≤ state₁.now := hlater.now
    have hfound : Found registry name (time - settingCacheTimeout) state₁ plain := by
      refine ⟨hheld, hasOf.mono ?_⟩
      omega
    refine Fallible.yields_pure fun state₃ hlater₃ hinvariant₃ other hother => ?_
    obtain rfl := Option.some.inj hother
    refine hfound.stays ?_ state₃ (hsound.trans hlater₂ hlater₃) hinvariant₃
    omega

theorem cacheSet_yields (hblank : registry.Blank) (hheld : Held registry state name value) :
    (cacheSet registry name value).Yields (contract Process registry) (execute process)
      (fun _ _ => True) state := by
  refine Fallible.Yields.bind (contract_sound hblank process) (objId_yields process none) ?_
  intro state₁ id hlater _ _
  refine Fallible.yields_perform fun state₂ hlater₂ _ _ => ⟨?_, fun _ _ _ => trivial⟩
  exact ⟨id, value, rfl, (hheld.later hlater).later hlater₂⟩

/-! ## Preloading -/

def Gathered (registry : Registry Name) (state : State Name Process) (preload : Preload Name) :
    Prop :=
  ∀ name, preload.settingsToCache name = settingCacheNotset ∨
    Held registry state name (preload.settingsToCache name)

omit [DecidableEq Process] in
theorem Gathered.add {preload : Preload Name} (hgathered : Gathered registry state preload)
    (hheld : Held registry state name value) (id : Option ℕ) :
    Gathered registry state (preload.add name value id) := by
  intro other
  rw [Preload.add]
  by_cases hother : other = name
  · subst hother
    dsimp only
    rw [Function.update_self]
    exact .inr hheld
  · dsimp only
    rw [Function.update_of_ne hother]
    exact hgathered other

omit [DecidableEq Process] in
theorem decryptField_row (hinvariant : Invariant registry state) {row : Row Name}
    (hrow : row ∈ state.rows) (hreadOnly : registry.readOnly row.key = false) :
    decryptField registry (some row.pk) row.value = .ok row.value.plain ∧
      Held registry state row.key row.value.plain := by
  obtain ⟨plain, hvalue, hplain⟩ := hinvariant.table.rows row hrow
  have hheld : Held registry state row.key plain := hplain.imp id fun hstored => ⟨hreadOnly, hstored⟩
  rw [hvalue, plain_encryptField]
  exact ⟨decryptField_encryptField (plain_of_held hinvariant hheld) (.inr rfl), hheld⟩

omit [DecidableEq Process] in
theorem loadRows_gathered (hinvariant : Invariant registry state) (rows : List (Row Name))
    (hrows : ∀ row ∈ rows, row ∈ state.rows ∧ registry.readOnly row.key = false)
    {preload : Preload Name} (hgathered : Gathered registry state preload) :
    ∃ preload', loadRows registry rows preload = .ok preload' ∧
      Gathered registry state preload' := by
  induction rows generalizing preload with
  | nil => exact ⟨preload, rfl, hgathered⟩
  | cons row rows ih =>
    obtain ⟨⟨hrow, hreadOnly⟩, hrows⟩ := List.forall_mem_cons.mp hrows
    rw [loadRows]
    split
    · exact ih hrows hgathered
    · obtain ⟨hdecrypted, hheld⟩ := decryptField_row hinvariant hrow hreadOnly
      rw [hdecrypted]
      exact ih hrows (hgathered.add hheld _)

omit [DecidableEq Process] in
theorem loadDefaults_held (hblank : registry.Blank) (names : List Name) {preload : Preload Name}
    (hgathered : Gathered registry state preload) :
    Gathered registry state (loadDefaults registry names preload) ∧
      ∀ name, name ∈ names ∨ Held registry state name (preload.settingsToCache name) →
        Held registry state name ((loadDefaults registry names preload).settingsToCache name) := by
  induction names generalizing preload with
  | nil => exact ⟨hgathered, fun name hname => hname.resolve_left List.not_mem_nil⟩
  | cons name names ih =>
    rw [loadDefaults, hblank.fieldDefault]
    split
    · next hset =>
      obtain ⟨hkept, hall⟩ := ih hgathered
      refine ⟨hkept, fun other hother => hall other ?_⟩
      rcases hother with hmem | hheld
      · rcases List.mem_cons.mp hmem with rfl | hmem
        · exact .inr ((hgathered other).resolve_left hset)
        · exact .inl hmem
      · exact .inr hheld
    · have hadded : Gathered registry state (preload.add name "" none) := hgathered.add (.inl rfl) _
      obtain ⟨hkept, hall⟩ := ih hadded
      refine ⟨hkept, fun other hother => hall other ?_⟩
      by_cases hsame : other = name
      · subst hsame
        exact .inr (.inl (Function.update_self ..))
      · rcases hother with hmem | hheld
        · exact .inl ((List.mem_cons.mp hmem).resolve_left hsame)
        · refine .inr ?_
          rw [Preload.add]
          dsimp only
          rwa [Function.update_of_ne hsame]

omit [DecidableEq Name] [DecidableEq Process] in
theorem mem_writeable (hname : name ∈ registry.writeable) :
    registry.readOnly name = false := by
  simpa using (List.mem_filter.mp hname).2

theorem storeSettings_yields (hblank : registry.Blank) (expires : ℕ) :
    (storeSettings registry expires).Yields (contract Process registry) (execute process)
      (fun _ _ => True) state := by
  have hsound := contract_sound hblank process
  refine Fallible.meets_perform_bind fun state₁ _ hinvariant _ => ⟨trivial, ?_⟩
  have hrows : ∀ row ∈ state₁.rows.filter (fun row => row.key ∈ registry.writeable),
      row ∈ state₁.rows ∧ registry.readOnly row.key = false := by
    intro row hrow
    obtain ⟨hmem, hkey⟩ := List.mem_filter.mp hrow
    exact ⟨hmem, mem_writeable (of_decide_eq_true hkey)⟩
  have hstart : Gathered registry state₁ ⟨fun _ => settingCacheNotset, []⟩ := fun _ => .inl rfl
  obtain ⟨loaded, hloaded, hgathered⟩ := loadRows_gathered hinvariant _ hrows hstart
  have hraises : (Fallible.raises (loadRows registry
      (state₁.rows.filter fun row => row.key ∈ registry.writeable)
      ⟨fun _ => settingCacheNotset, []⟩) : Code Name (Preload Name)).Yields
      (contract Process registry) (execute process) (fun _ result => result = loaded) state₁ :=
    Fallible.yields_raises hloaded fun _ _ _ => rfl
  refine Fallible.Yields.bind hsound hraises ?_
  intro state₂ result hlater₂ hinvariant₂ hresult
  obtain rfl : result = loaded := hresult state₂ (hsound.refl _) hinvariant₂
  refine Fallible.Yields.bind hsound (Fallible.yields_forM hsound fun entry _ _ _ _ =>
    Fallible.yields_perform fun _ _ _ _ => ⟨trivial, fun _ _ _ => trivial⟩) ?_
  intro state₃ _ hlater₃ _ _
  refine Fallible.Yields.bind hsound (Fallible.yields_forM hsound ?_) ?_
  · intro name hname state₄ hlater₄ _
    have hheld := (loadDefaults_held hblank registry.writeable hgathered).2 name (.inl hname)
    exact cacheSet_yields process hblank
      (hheld.later (hsound.trans hlater₂ (hsound.trans hlater₃ hlater₄)))
  · exact fun _ _ _ _ _ => Fallible.yields_perform fun _ _ _ _ => ⟨trivial, fun _ _ _ => trivial⟩

theorem preloadCache_yields (hblank : registry.Blank) :
    (preloadCache registry).Yields (contract Process registry) (execute process)
      (fun _ _ => True) state := by
  refine Fallible.meets_perform_bind fun _ _ _ _ => ⟨trivial, ?_⟩
  refine Fallible.meets_perform_bind fun _ _ _ _ => ⟨trivial, ?_⟩
  split
  · exact Fallible.yields_pure fun _ _ _ => trivial
  · refine Fallible.meets_perform_bind fun _ _ _ _ => ⟨trivial, ?_⟩
    refine Fallible.meets_perform_bind fun _ _ _ _ => ⟨trivial, ?_⟩
    refine Fallible.meets_perform_bind fun _ _ _ _ => ⟨trivial, ?_⟩
    split
    · exact Fallible.yields_pure fun _ _ _ => trivial
    · exact storeSettings_yields process hblank _

/-! ## Reading -/

def FoundText (registry : Registry Name) (name : Name) (time : ℕ) (state : State Name Process)
    (value : Value) : Prop :=
  ∃ text, value = .text text ∧ Found registry name time state text

theorem getSettingFromDb_yields (htime : time ≤ state.now) :
    (getSettingFromDb registry name none).Yields (contract Process registry) (execute process)
      (fun state setting =>
        match setting with
        | some row => registry.readOnly name = false ∧
            decryptField registry (some row.pk) row.value = .ok row.value.plain ∧
              Found registry name time state row.value.plain
        | none => ∀ value, registry.default? name = some value →
            AsOf registry state name time value) state := by
  rw [getSettingFromDb]
  split
  · next hreadOnly =>
    refine Fallible.yields_pure fun state₁ _ _ value hdefault _ => ?_
    rw [State.value?, Registry.valueOf, if_pos hreadOnly, hdefault]
  · next hreadOnly =>
    rw [Bool.not_eq_true] at hreadOnly
    refine Fallible.yields_perform fun state₁ hlater hinvariant _ => ⟨trivial, ?_⟩
    intro state₂ hlater₂ hinvariant₂
    have hnow : time ≤ state₁.now := htime.trans hlater.now
    cases hrow : state₁.row? name with
    | none =>
      simp only [execute, hrow]
      intro value hdefault
      have hasOf : AsOf registry state₁ name time value := by
        intro _
        rw [State.value?, Registry.valueOf, hreadOnly, hrow, hdefault]
        rfl
      exact hasOf.later hnow hlater₂
    | some row =>
      simp only [execute, hrow]
      obtain ⟨hmem, rfl⟩ := row?_mem hrow
      obtain ⟨hdecrypted, hheld⟩ := decryptField_row hinvariant hmem hreadOnly
      refine ⟨hreadOnly, hdecrypted, hheld.later hlater₂, AsOf.later ?_ hnow hlater₂⟩
      intro _
      rw [State.value?, Registry.valueOf, hreadOnly, hrow]
      rfl

theorem storedOrDefault_yields (hblank : registry.Blank) (htime : time ≤ state.now) :
    (storedOrDefault registry name).Yields (contract Process registry) (execute process)
      (fun state result => FoundText registry name time state result.1) state := by
  have hsound := contract_sound hblank process
  refine Fallible.Yields.bind hsound (getSettingFromDb_yields process htime) ?_
  intro state₁ setting hlater₁ hinvariant₁ hstays
  split
  · next row =>
    obtain ⟨-, hdecrypted, -⟩ := hstays state₁ (hsound.refl _) hinvariant₁
    rw [hdecrypted]
    exact Fallible.yields_pure fun state₂ hlater₂ hinvariant₂ =>
      ⟨row.value.plain, rfl, (hstays state₂ hlater₂ hinvariant₂).2.2⟩
  · rw [hblank.fieldDefault]
    exact Fallible.yields_pure fun state₂ hlater₂ hinvariant₂ =>
      ⟨"", rfl, .inl rfl, hstays state₂ hlater₂ hinvariant₂ "" (default?_eq hblank name)⟩

theorem lookUp_yields (hblank : registry.Blank) (htime : time ≤ state.now)
    (cacheValue : Option String) :
    (lookUp registry name cacheValue).Yields (contract Process registry) (execute process)
      (FoundText registry name time) state := by
  have hsound := contract_sound hblank process
  refine Fallible.Yields.bind hsound (storedOrDefault_yields process hblank htime) ?_
  intro state₁ result _ hinvariant₁ hstays
  obtain ⟨text, hvalue, hheld, -⟩ := hstays state₁ (hsound.refl _) hinvariant₁
  dsimp only
  split
  · exact Fallible.yields_pure hstays
  · have hcached : ∀ state₂, Later registry state₁ state₂ →
        Fallible.Yields (contract Process registry) (execute process)
          (FoundText registry name time)
          (cacheSet registry name (getCacheValue result.1) >>= fun _ => pure result.1) state₂ := by
      intro state₂ hlater₂
      rw [hvalue]
      refine Fallible.Yields.bind hsound (cacheSet_yields process hblank (hheld.later hlater₂)) ?_
      intro state₃ _ hlater₃ _ _
      refine Fallible.yields_pure ?_
      rw [← hvalue]
      exact Prog.Contract.Stays.later hsound hstays (hsound.trans hlater₂ hlater₃)
    split
    · refine Fallible.meets_perform_bind fun state₂ hlater₂ hinvariant₂ _ => ⟨trivial, ?_⟩
      exact hcached _ (hlater₂.trans (later_setId state₂ process name _))
    · exact hcached state₁ (Later.refl state₁)

omit [DecidableEq Process] in
theorem validated_foundText (hblank : registry.Blank) (hinvariant : Invariant registry state)
    {value : Value} (hfound : FoundText registry name time state value) :
    ∃ text, validated registry name value = some text ∧ Found registry name time state text := by
  obtain ⟨text, rfl, hheld, hasOf⟩ := hfound
  have hplain := plain_of_held hinvariant hheld
  have hmarker : Value.text text ≠ .text settingCacheNotset := by
    intro hsame
    apply hplain.2
    rw [Value.text.inj hsame]
    exact List.mem_cons_self
  rw [validated, if_neg hmarker]
  exact ⟨text, validate_of_held hblank hinvariant hheld, hheld, hasOf⟩

theorem cacheValueOf_yields (hblank : registry.Blank) (htime : time ≤ state.now) :
    (cacheValueOf registry name).Yields (contract Process registry) (execute process)
      (fun state result => ∀ value ∈ result,
        Found registry name (time - settingCacheTimeout) state value) state :=
  Fallible.Yields.tryCatch (contract_sound hblank process) (cacheGet_yields process hblank htime) _

theorem getLocal_yields (hblank : registry.Blank) (htime : time ≤ state.now) :
    (getLocal registry name).Yields (contract Process registry) (execute process)
      (fun state result => ∃ value, result = some value ∧
        Found registry name (time - settingCacheTimeout) state value) state := by
  have hsound := contract_sound hblank process
  refine Fallible.Yields.bind hsound (preloadCache_yields process hblank) ?_
  intro state₁ _ hlater₁ _ _
  have hnow₁ : time ≤ state₁.now := htime.trans hlater₁.now
  refine Fallible.Yields.bind hsound (cacheValueOf_yields process hblank hnow₁) ?_
  intro state₂ cacheValue hlater₂ hinvariant₂ hstays
  have hvalidated : ∀ state₃ value, (contract Process registry).Stays
      (FoundText registry name (time - settingCacheTimeout)) state₃ value →
      Fallible.Yields (contract Process registry) (execute process)
        (fun state result => ∃ value, result = some value ∧
          Found registry name (time - settingCacheTimeout) state value)
        (pure (validated registry name value) : Code Name (Option String)) state₃ :=
    fun state₃ value hfound => Fallible.yields_pure fun state₄ hlater₄ hinvariant₄ =>
      validated_foundText hblank hinvariant₄ (hfound state₄ hlater₄ hinvariant₄)
  dsimp only
  split
  · next value hvalue =>
    obtain ⟨text, hcache, hread⟩ := Option.bind_eq_some_iff.mp hvalue
    refine hvalidated state₂ value fun state₃ hlater₃ hinvariant₃ => ?_
    have hfound := hstays state₃ hlater₃ hinvariant₃ text hcache
    rw [readCacheValue_of_plain (plain_of_held hinvariant₃ hfound.1)] at hread
    exact ⟨text, (Option.some.inj hread).symm, hfound⟩
  · refine Fallible.Yields.bind hsound
      (lookUp_yields process hblank (hnow₁.trans hlater₂.now) cacheValue) ?_
    intro state₃ value _ _ hfound
    refine hvalidated state₃ value fun state₄ hlater₄ hinvariant₄ => ?_
    obtain ⟨text, hvalue, hheld⟩ := hfound state₄ hlater₄ hinvariant₄
    exact ⟨text, hvalue, hheld.mono (Nat.sub_le _ _)⟩

theorem getLocalWithCache_yields (hblank : registry.Blank) (htime : time ≤ state.now) :
    (getLocalWithCache registry name).Yields (contract Process registry) (execute process)
      (fun state result => ∃ value, result = some value ∧
        Found registry name (time - (settingCacheTimeout + settingMemoryTtl)) state value)
      state := by
  have hsound := contract_sound hblank process
  refine Fallible.meets_perform_bind fun state₁ hlater hinvariant _ => ⟨trivial, ?_⟩
  have hnow : time ≤ state₁.now := htime.trans hlater.now
  split
  · next outcome houtcome =>
    obtain ⟨entry, hentry, hread⟩ := Option.bind_eq_some_iff.mp houtcome
    obtain ⟨hexpires, hsome⟩ := Option.ite_none_right_eq_some.mp hread
    obtain rfl := Option.some.inj hsome
    obtain ⟨hlimit, value, hvalue, hheld, hasOf⟩ := hinvariant.memories process name entry hentry
    have hfound : Found registry name (time - (settingCacheTimeout + settingMemoryTtl)) state₁
        value := ⟨hheld, hasOf.mono (by omega)⟩
    exact Fallible.yields_pure fun state₂ hlater₂ hinvariant₂ =>
      ⟨value, hvalue, hfound.stays (by omega) state₂ hlater₂ hinvariant₂⟩
  · refine Fallible.Yields.bind hsound (getLocal_yields process hblank hnow) ?_
    intro state₂ outcome _ _ hstays
    refine Fallible.meets_perform_bind fun state₃ hlater₃ hinvariant₃ hallowed => ?_
    obtain ⟨value, hvalue, hfound⟩ := hstays state₃ hlater₃ hinvariant₃
    have hrequired : Required registry state₃ (.remember name outcome) := ⟨value, hvalue, hfound.1⟩
    have hremember := (hsound.execute hinvariant₃ hallowed hrequired).2
    refine ⟨hrequired, Fallible.yields_pure fun state₄ hlater₄ hinvariant₄ => ?_⟩
    obtain ⟨value', hvalue', hfound'⟩ :=
      hstays state₄ (hlater₃.trans (hremember.trans hlater₄)) hinvariant₄
    exact ⟨value', hvalue', hfound'.mono (by omega)⟩

theorem getAttr_yields (hblank : registry.Blank) (htime : time ≤ state.now) :
    (getAttr registry name).Yields (contract Process registry) (execute process)
      (Found registry name (time - (settingCacheTimeout + settingMemoryTtl))) state := by
  have hsound := contract_sound hblank process
  refine Fallible.Yields.bind hsound (getLocalWithCache_yields process hblank htime) ?_
  intro state₁ result _ hinvariant hstays
  obtain ⟨value, rfl, -⟩ := hstays state₁ (hsound.refl _) hinvariant
  refine Fallible.yields_pure fun state₂ hlater₂ hinvariant₂ => ?_
  obtain ⟨value', hvalue', hfound⟩ := hstays state₂ hlater₂ hinvariant₂
  rwa [Option.some.inj hvalue']

theorem read_yields (hblank : registry.Blank) :
    (read registry name).Yields (contract Process registry) (execute process)
      (fun _ _ => True) state := by
  have hsound := contract_sound hblank process
  refine Fallible.meets_perform_bind fun state₁ _ _ _ => ⟨trivial, ?_⟩
  refine Fallible.Yields.bind hsound
    ((getAttr_yields process hblank (le_refl state₁.now)).attempt hsound) ?_
  intro state₂ outcome _ _ hstays
  refine Fallible.meets_perform_bind fun state₃ hlater₃ hinvariant₃ _ => ?_
  obtain ⟨value, rfl, hfound⟩ := hstays state₃ hlater₃ hinvariant₃
  exact ⟨⟨value, rfl, hfound⟩, Fallible.yields_raises rfl fun _ _ _ => trivial⟩

/-! ## Writing -/

theorem readOrNone_yields (hblank : registry.Blank) :
    (readOrNone registry name).Yields (contract Process registry) (execute process)
      (fun _ _ => True) state := by
  have hsound := contract_sound hblank process
  refine Fallible.Yields.tryCatch hsound ?_ _
  exact Fallible.Yields.bind hsound (read_yields process hblank) fun _ _ _ _ _ =>
    Fallible.yields_pure fun _ _ _ => trivial

theorem handleSettingChange_yields (hblank : registry.Blank) :
    (handleSettingChange registry name).Yields (contract Process registry) (execute process)
      (fun _ _ => True) state := by
  have hsound := contract_sound hblank process
  refine Fallible.Yields.bind hsound (Fallible.yields_forM hsound fun _ _ _ _ _ =>
    Fallible.yields_perform fun _ _ _ _ => ⟨trivial, fun _ _ _ => trivial⟩) ?_
  intro _ _ _ _ _
  refine Fallible.meets_perform_bind fun _ _ _ _ => ⟨trivial, ?_⟩
  exact Fallible.yields_forM hsound fun _ _ _ _ _ => readOrNone_yields process hblank

def KeyOf (state : State Name Process) (pk : ℕ) (name : Name) : Prop :=
  pk < state.nextPk ∧ ∀ row ∈ state.rows, row.pk = pk → row.key = name

omit [DecidableEq Process] in
theorem KeyOf.later {pk : ℕ} (hkey : KeyOf state pk name) (hlater : Later registry state state') :
    KeyOf state' pk name := by
  refine ⟨hkey.1.trans_le hlater.nextPk, fun row hrow hpk => ?_⟩
  obtain ⟨old, hold, hsame, hname⟩ := hlater.keys row hrow (hpk ▸ hkey.1)
  exact hname ▸ hkey.2 old hold (hsame.trans hpk)

theorem keyOf_insert (hinvariant : Invariant registry state) (name : Name) :
    KeyOf (execute process state (.insert name)).2 state.nextPk name := by
  refine ⟨Nat.lt_succ_self _, fun row hrow hpk => ?_⟩
  rcases List.mem_append.mp hrow with hold | hnew
  · exact absurd (hinvariant.table.fresh row hold) (hpk ▸ lt_irrefl _)
  · rw [List.mem_singleton.mp hnew]

omit [DecidableEq Process] in
theorem keyOf_row (hinvariant : Invariant registry state) {row : Row Name}
    (hrow : row ∈ state.rows) : KeyOf state row.pk row.key := by
  refine ⟨hinvariant.table.fresh row hrow, fun other hother hpk => ?_⟩
  rw [List.inj_on_of_nodup_map hinvariant.table.pks hother hrow hpk]

theorem saveValue_meets (hblank : registry.Blank) {pk : ℕ} (hkey : KeyOf state pk name)
    (hvalid : registry.validate name (.text value) = some value) :
    (saveValue registry name pk value).run.Meets (contract Process registry) (execute process)
      (fun _ _ => True) state := by
  refine Fallible.meets_perform_bind fun state₁ hlater _ _ => ⟨⟨value, rfl, ?_⟩, ?_⟩
  · intro row hrow hpk
    rwa [(hkey.later hlater).2 row hrow hpk]
  · split
    · exact Prog.Meets.mono (handleSettingChange_yields process hblank) fun _ _ _ => trivial
    · exact fun _ _ _ => trivial

theorem create_meets (hblank : registry.Blank)
    (hvalid : registry.validate name (.text value) = some value) :
    (create registry name value).run.Meets (contract Process registry) (execute process)
      (fun _ _ => True) state := by
  refine Fallible.meets_perform_bind fun state₁ _ hinvariant _ => ⟨trivial, ?_⟩
  have hkey := keyOf_insert process hinvariant name
  refine Fallible.Yields.bind (contract_sound hblank process)
    (handleSettingChange_yields process hblank) ?_
  intro state₂ _ hlater₂ _ _
  exact saveValue_meets process hblank (hkey.later hlater₂) hvalid

theorem setLocal_meets (hblank : registry.Blank) (value : Value) :
    (setLocal registry name value).run.Meets (contract Process registry) (execute process)
      (fun _ _ => True) state := by
  rw [setLocal]
  split
  · exact fun _ _ _ => trivial
  · split
    · exact fun _ _ _ => trivial
    · next dbValue hvalidated =>
      have hvalid := hblank.again name value dbValue hvalidated
      refine Fallible.meets_perform_bind fun state₁ _ hinvariant _ => ⟨trivial, ?_⟩
      split
      · exact create_meets process hblank hvalid
      · next row hrow =>
        split
        · exact fun _ _ _ => trivial
        · obtain ⟨hmem, rfl⟩ := row?_mem hrow
          exact saveValue_meets process hblank (keyOf_row hinvariant hmem) hvalid

theorem delLocal_meets (hblank : registry.Blank) :
    (delLocal registry name).run.Meets (contract Process registry) (execute process)
      (fun _ _ => True) state := by
  have hsound := contract_sound hblank process
  rw [delLocal]
  split
  · exact fun _ _ _ => trivial
  · refine Fallible.meets_perform_bind fun state₁ _ _ _ => ⟨trivial, ?_⟩
    refine Prog.Meets.mono (Fallible.yields_forM hsound fun _ _ _ _ _ => ?_)
      fun _ _ _ => trivial
    exact Fallible.meets_perform_bind fun _ _ _ _ =>
      ⟨trivial, handleSettingChange_yields process hblank⟩

theorem code_meets (hblank : registry.Blank) (task : Task Name) :
    (code registry task).Meets (contract Process registry) (execute process) (fun _ _ => True)
      state := by
  have hsound := contract_sound hblank process
  have htask : (task.code registry).run.Meets (contract Process registry) (execute process)
      (fun _ _ => True) state := by
    cases task with
    | read name =>
      exact Fallible.Yields.bind hsound (read_yields process hblank) fun _ _ _ _ _ _ _ _ => trivial
    | set name value => exact setLocal_meets process hblank value
    | delete name => exact delLocal_meets process hblank
    | preload =>
      exact Prog.Meets.mono (preloadCache_yields process hblank) fun _ _ _ => trivial
  exact Prog.Meets.bind hsound htask fun _ _ _ _ _ _ _ _ => trivial

end Forail.EncryptedSettings
