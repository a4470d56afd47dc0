import Forail.Migration.ImportSteps
import Mathlib.Data.List.Nodup

/-!
# Natural keys over an import

No object changes its natural key, and the object that an entry is imported to has the key of
the entry: the objects of a kind after an import are the old ones and one for each key of an
entry.
-/

namespace Forail.Migration

open Forail.FallibleLoops Forail.Json Forail.Tables

variable {env : Environment} {options : Options} {client : Client} {importer : Importer}
  {ctx ctx' : Context} {record : Value} {kind : Kind} {db : Database} {resource : Resource}
  {pk other : ℕ} {wanted key : NaturalKey}

def HasKey (kind : Kind) (db : Database) (pk : ℕ) (key : NaturalKey) : Prop :=
  ∃ row, db.get? ⟨kind, pk⟩ = some row ∧ naturalKey kind row = key

def UniqueKeys (kind : Kind) (db : Database) : Prop :=
  ∀ pk other key, HasKey kind db pk key → HasKey kind db other key → pk = other

theorem hasKey_congr {db' : Database} (hsame : db'.get? ⟨kind, pk⟩ = db.get? ⟨kind, pk⟩) :
    HasKey kind db' pk key ↔ HasKey kind db pk key := by
  rw [HasKey, HasKey, hsame]

theorem HasKey.unique {key' : NaturalKey} (hkey : HasKey kind db pk key)
    (hkey' : HasKey kind db pk key') : key = key' := by
  obtain ⟨row, hrow, rfl⟩ := hkey
  obtain ⟨row', hrow', rfl⟩ := hkey'
  rw [Option.some.inj (hrow.symm.trans hrow')]

/-! ## New objects -/

theorem resolveParents_length {maps : Maps} {parents : List Parent} {refs : List (Option Ref)}
    (hresolve : resolveParents maps record parents = .ok (some refs)) :
    refs.length = parents.length := by
  induction parents generalizing refs with
  | nil =>
    obtain rfl := Option.some.inj (Except.ok.inj hresolve)
    rfl
  | cons parent parents ih =>
    obtain ⟨id, -, hrest⟩ := bind_eq_ok hresolve
    obtain ⟨ref, -, hrest⟩ := bind_eq_ok hrest
    split at hrest
    · exact absurd (Except.ok.inj hrest).symm (Option.some_ne_none refs)
    · obtain ⟨rest, hrest', hend⟩ := bind_eq_ok hrest
      obtain ⟨refs', rfl, rfl⟩ := Option.map_eq_some_iff.mp (Except.ok.inj hend)
      rw [List.length_cons, List.length_cons, ih hrest']

def NaturalKey.Shaped (kind : Kind) (key : NaturalKey) : Prop :=
  ∃ text, key.name = some text ∧ key.parents.length = kind.parentFields.length

theorem shaped_of_wanted {texts : Texts} {maps : Maps}
    (himporter : importerOf resource = some importer)
    (hwanted : importer.wanted texts maps record = .ok (some wanted)) :
    wanted.Shaped importer.kind := by
  obtain ⟨parents, name, text, hparents, -, -, rfl⟩ := wanted_cases hwanted
  refine ⟨text, rfl, (resolveParents_length hparents).trans ?_⟩
  cases resource <;> first
    | exact absurd himporter.symm (Option.some_ne_none _)
    | obtain rfl := Option.some.inj himporter; rfl

theorem naturalKey_newObject (hshaped : wanted.Shaped kind) :
    naturalKey kind (newObject kind wanted) = wanted := by
  obtain ⟨name, parents⟩ := wanted
  obtain ⟨text, hname, hlength⟩ := hshaped
  obtain rfl : name = some text := hname
  match parents with
  | [] => cases kind <;> first | rfl | exact absurd hlength (by simp [Kind.parentFields])
  | [_] => cases kind <;> first | rfl | exact absurd hlength (by simp [Kind.parentFields])
  | [_, _] => cases kind <;> first | rfl | exact absurd hlength (by simp [Kind.parentFields])
  | _ :: _ :: _ :: _ => cases kind <;> simp [Kind.parentFields] at hlength

/-! ## Imported entries -/

structure KeyImport (kind : Kind) (wanted : NaturalKey) (pk : ℕ) (ctx : Context) (record : Value)
    (ctx' : Context) : Prop where
  id : ∃ id, record.item "id" = .ok id ∧ ctx.maps.set kind id pk = .ok ctx'.maps
  keys : ∀ other key, HasKey kind ctx'.db other key ↔
    HasKey kind ctx.db other key ∨ other = pk ∧ key = wanted
  fresh : HasKey kind ctx.db pk wanted ∨ ∀ other, ¬HasKey kind ctx.db other wanted

theorem Imports.keys (himporter : importerOf resource = some importer)
    (himports : Imports env options importer ctx record ctx') :
    importer.wanted env.texts ctx.maps record = .ok none ∧ ctx' = ctx ∨
      ∃ wanted pk, importer.wanted env.texts ctx.maps record = .ok (some wanted) ∧
        KeyImport importer.kind wanted pk ctx record ctx' := by
  cases himports with
  | skipped hskipped => exact Or.inl ⟨hskipped, rfl⟩
  | @saved wanted pk created before loaded object row _ id _ hwanted hprior hloaded hassigned _
      hstored hid hmaps hrow hothers _ _ =>
    have hkey : naturalKey importer.kind row = wanted := by
      rw [naturalKey_saved (keepsKeys_of_importerOf himporter) hloaded hassigned hstored]
      cases hprior with
      | created _ _ => exact naturalKey_newObject (shaped_of_wanted himporter hwanted)
      | found _ hkey _ => exact hkey
    refine Or.inr ⟨wanted, pk, hwanted, ⟨id, hid, hmaps⟩, fun other key => ?_, ?_⟩
    · by_cases hpk : other = pk
      · subst hpk
        constructor
        · rintro ⟨row', hrow', rfl⟩
          obtain rfl := Option.some.inj (hrow.symm.trans hrow')
          exact Or.inr ⟨rfl, hkey⟩
        · rintro (⟨row', hrow', rfl⟩ | ⟨-, rfl⟩)
          · refine ⟨row, hrow, hkey.trans ?_⟩
            cases hprior with
            | created hfree _ => exact absurd (hrow'.symm.trans hfree) (Option.some_ne_none row')
            | found hbefore hfound _ =>
              obtain rfl := Option.some.inj (hbefore.symm.trans hrow')
              exact hfound.symm
          · exact ⟨row, hrow, hkey⟩
      · rw [hasKey_congr (hothers _ fun hsame => hpk (congrArg Ref.pk hsame))]
        exact ⟨Or.inl, fun hor => hor.resolve_right fun hboth => hpk hboth.1⟩
    · cases hprior with
      | created _ hnone => exact Or.inr fun other ⟨row', hrow', hkey'⟩ => hnone other row' hrow' hkey'
      | found hbefore hfound _ => exact Or.inl ⟨before, hbefore, hfound⟩

theorem KeyImport.hasKey (himport : KeyImport kind wanted pk ctx record ctx') :
    HasKey kind ctx'.db pk wanted :=
  (himport.keys pk wanted).mpr (Or.inr ⟨rfl, rfl⟩)

theorem KeyImport.unique (himport : KeyImport kind wanted pk ctx record ctx')
    (hunique : UniqueKeys kind ctx.db) : UniqueKeys kind ctx'.db := by
  intro first second key hfirst hsecond
  rcases (himport.keys first key).mp hfirst with hfirst | ⟨rfl, rfl⟩
  · rcases (himport.keys second key).mp hsecond with hsecond | ⟨rfl, rfl⟩
    · exact hunique first second key hfirst hsecond
    · rcases himport.fresh with hfound | hnone
      · exact hunique first _ _ hfirst hfound
      · exact absurd hfirst (hnone first)
  · rcases (himport.keys second _).mp hsecond with hsecond | ⟨rfl, -⟩
    · rcases himport.fresh with hfound | hnone
      · exact hunique _ second _ hfound hsecond
      · exact absurd hsecond (hnone second)
    · rfl

/-! ## The loop over the entries of a list -/

def Wants (env : Environment) (importer : Importer) (maps : Maps) (record : Value)
    (key : NaturalKey) : Prop :=
  importer.wanted env.texts maps record = .ok (some key)

theorem Wants.unique {maps : Maps} {key' : NaturalKey} (hwants : Wants env importer maps record key)
    (hwants' : Wants env importer maps record key') : key = key' :=
  Option.some.inj (Except.ok.inj (hwants.symm.trans hwants'))

theorem resolve_congr {maps maps' : Maps} {parent : Parent}
    (himporter : importerOf resource = some importer) (hparent : parent ∈ importer.parents)
    (hmaps : ∀ kind ≠ importer.kind, maps kind = maps' kind) (id : Value) :
    parent.resolve maps id = parent.resolve maps' id := by
  have hmapped : ∀ kind ≠ importer.kind, maps.mapped kind = maps'.mapped kind := fun kind hne =>
    funext (mapped_congr (hmaps kind hne))
  have hunified : importer.kind = .schedule → maps.unifiedJt id = maps'.unifiedJt id := by
    intro hkind
    have hne : ∀ kind, kind ≠ .schedule → maps.mapped kind = maps'.mapped kind := fun kind hne =>
      hmapped kind (by rw [hkind]; exact hne)
    rw [Maps.unifiedJt.eq_def, Maps.unifiedJt.eq_def, hne _ Kind.noConfusion,
      hne _ Kind.noConfusion, hne _ Kind.noConfusion, hne _ Kind.noConfusion]
  cases resource with
  | roles => exact absurd himporter.symm (Option.some_ne_none _)
  | organizations | users | credentialTypes | jobTemplates =>
    obtain rfl := Option.some.inj himporter
    exact absurd hparent List.not_mem_nil
  | schedules =>
    obtain rfl := Option.some.inj himporter
    obtain rfl := List.mem_singleton.mp hparent
    exact hunified rfl
  | credentials =>
    obtain rfl := Option.some.inj himporter
    rcases List.mem_cons.mp hparent with rfl | hlast
    · exact congrFun (hmapped .credentialType Kind.noConfusion) id
    · obtain rfl := List.mem_singleton.mp hlast
      exact congrFun (hmapped .organization Kind.noConfusion) id
  | _ =>
    obtain rfl := Option.some.inj himporter
    obtain rfl := List.mem_singleton.mp hparent
    exact congrFun (hmapped _ Kind.noConfusion) id

theorem wants_congr {maps maps' : Maps} (himporter : importerOf resource = some importer)
    (hmaps : ∀ kind ≠ importer.kind, maps kind = maps' kind) :
    Wants env importer maps record key ↔ Wants env importer maps' record key := by
  rw [Wants, Wants, wanted_congr fun parent hparent id =>
    resolve_congr himporter hparent hmaps id]

/-- The entries of a list as AWX gives them: their ids are numbers, and no two are the same. -/
structure DistinctIds (records : List Value) : Prop where
  nodup : (records.map (Value.item "id")).Nodup
  number : ∀ record ∈ records, ∃ id : ℤ, record.item "id" = .ok (.int id)

theorem DistinctIds.eq {records : List Value} {other : Value} (hids : DistinctIds records)
    (hrecord : record ∈ records) (hother : other ∈ records)
    (hsame : record.item "id" = other.item "id") : record = other :=
  List.inj_on_of_nodup_map hids.nodup hrecord hother hsame

theorem equal_int (left right : ℤ) : (Value.int left).equal (.int right) = true ↔ left = right := by
  change decide ((left : Rat) = right) = true ↔ left = right
  rw [decide_eq_true_iff, Rat.intCast_inj]

theorem set_eq_append {maps maps' : Maps} {id : ℤ}
    (hnew : ∀ entry ∈ maps kind, ∃ other : ℤ, entry.1 = .int other ∧ other ≠ id)
    (hset : maps.set kind (.int id) pk = .ok maps') : maps' kind = maps kind ++ [(.int id, pk)] := by
  have hnone : ((maps kind).any fun entry => entry.1.equal (.int id)) = false := by
    rw [List.any_eq_false]
    intro entry hentry hequal
    obtain ⟨other, hother, hne⟩ := hnew entry hentry
    rw [hother, equal_int] at hequal
    exact hne hequal
  have hhashable : (Value.int id).hashable = true := rfl
  rw [Maps.set, if_pos hhashable, hnone, if_neg Bool.false_ne_true] at hset
  rw [← Except.ok.inj hset]
  exact Function.update_self _ _ _

/-- The objects and the map of a kind in the middle of the loop over its entries: an object has
the key of an entry or was there before, and the map has an id for every entry that was not
skipped. -/
structure Entered (env : Environment) (importer : Importer) (start : Context) (done : List Value)
    (ctx : Context) : Prop where
  maps : ∀ kind ≠ importer.kind, ctx.maps kind = start.maps kind
  unique : UniqueKeys importer.kind ctx.db
  old : ∀ pk key, HasKey importer.kind start.db pk key → HasKey importer.kind ctx.db pk key
  new : ∀ pk key, HasKey importer.kind ctx.db pk key → HasKey importer.kind start.db pk key ∨
    ∃ record ∈ done, Wants env importer start.maps record key
  imported : ∀ record ∈ done, ∀ key, Wants env importer start.maps record key →
    ∃ pk, HasKey importer.kind ctx.db pk key
  entries : ∀ id pk, (id, pk) ∈ ctx.maps importer.kind ↔ ∃ record ∈ done, ∃ key,
    record.item "id" = .ok id ∧ Wants env importer start.maps record key ∧
      HasKey importer.kind ctx.db pk key

theorem Entered.start (hunique : UniqueKeys importer.kind ctx.db) (hempty : ctx.maps importer.kind = []) :
    Entered env importer ctx [] ctx where
  maps _ _ := rfl
  unique := hunique
  old _ _ hkey := hkey
  new _ _ hkey := Or.inl hkey
  imported _ hmem := absurd hmem List.not_mem_nil
  entries id pk := by
    rw [hempty]
    refine iff_of_false List.not_mem_nil ?_
    rintro ⟨_, hmem, -⟩
    exact List.not_mem_nil hmem

variable {start : Context} {done : List Value}

theorem Entered.skipped (hentered : Entered env importer start done ctx)
    (hskipped : ∀ key, ¬Wants env importer start.maps record key) :
    Entered env importer start (done ++ [record]) ctx := by
  have hdone : ∀ {other : Value}, other ∈ done ++ [record] → ∀ {key},
      Wants env importer start.maps other key → other ∈ done := by
    intro other hother key hwants
    rcases List.mem_append.mp hother with hbefore | hlast
    · exact hbefore
    · rw [List.mem_singleton.mp hlast] at hwants
      exact absurd hwants (hskipped key)
  refine ⟨hentered.maps, hentered.unique, hentered.old, fun pk key hkey => ?_,
    fun other hother key hwants => hentered.imported other (hdone hother hwants) key hwants,
    fun id pk => (hentered.entries id pk).trans ⟨?_, ?_⟩⟩
  · apply (hentered.new pk key hkey).imp_right
    rintro ⟨other, hother, hwants⟩
    exact ⟨other, List.mem_append_left _ hother, hwants⟩
  · rintro ⟨other, hother, hrest⟩
    exact ⟨other, List.mem_append_left _ hother, hrest⟩
  · rintro ⟨other, hother, key, hid, hwants, hkey⟩
    exact ⟨other, hdone hother hwants, key, hid, hwants, hkey⟩

theorem Entered.saved (hids : DistinctIds (done ++ [record]))
    (hentered : Entered env importer start done ctx)
    (hwants : Wants env importer start.maps record wanted)
    (himport : KeyImport importer.kind wanted pk ctx record ctx')
    (hmaps : ∀ kind ≠ importer.kind, ctx'.maps kind = ctx.maps kind) :
    Entered env importer start (done ++ [record]) ctx' := by
  have hlast : record ∈ done ++ [record] :=
    List.mem_append_right _ (List.mem_singleton_self _)
  have hkeeps : ∀ other key, HasKey importer.kind ctx.db other key →
      HasKey importer.kind ctx'.db other key := fun other key hkey =>
    (himport.keys other key).mpr (Or.inl hkey)
  -- An entry that was done has its object already.
  have hbefore : ∀ other ∈ done, ∀ key, Wants env importer start.maps other key → ∀ found,
      HasKey importer.kind ctx'.db found key → HasKey importer.kind ctx.db found key := by
    intro other hother key hother' found hfound
    obtain ⟨old, hold⟩ := hentered.imported other hother key hother'
    rwa [himport.unique hentered.unique found old key hfound (hkeeps old key hold)]
  obtain ⟨number, hnumber⟩ := hids.number record hlast
  have hadded : ctx'.maps importer.kind = ctx.maps importer.kind ++ [(.int number, pk)] := by
    obtain ⟨id, hid, hset⟩ := himport.id
    obtain rfl := Except.ok.inj (hnumber.symm.trans hid)
    refine set_eq_append (fun entry hentry => ?_) hset
    obtain ⟨other, hother, key, hid', -⟩ := (hentered.entries entry.1 entry.2).mp hentry
    obtain ⟨number', hnumber'⟩ := hids.number other (List.mem_append_left _ hother)
    refine ⟨number', Except.ok.inj (hid'.symm.trans hnumber'), ?_⟩
    rintro rfl
    obtain rfl := hids.eq (List.mem_append_left _ hother) hlast (hnumber'.trans hnumber.symm)
    have hnodup := hids.nodup
    rw [List.map_append, List.nodup_append] at hnodup
    exact hnodup.2.2 _ (List.mem_map_of_mem hother) _ (List.mem_singleton_self _) rfl
  constructor
  · exact fun kind hne => (hmaps kind hne).trans (hentered.maps kind hne)
  · exact himport.unique hentered.unique
  · exact fun other key hkey => hkeeps other key (hentered.old other key hkey)
  · intro other key hkey
    rcases (himport.keys other key).mp hkey with hkey | ⟨-, rfl⟩
    · apply (hentered.new other key hkey).imp_right
      rintro ⟨earlier, hearlier, hrest⟩
      exact ⟨earlier, List.mem_append_left _ hearlier, hrest⟩
    · exact Or.inr ⟨record, hlast, hwants⟩
  · intro other hother key hkey
    rcases List.mem_append.mp hother with hearlier | hsame
    · obtain ⟨found, hfound⟩ := hentered.imported other hearlier key hkey
      exact ⟨found, hkeeps found key hfound⟩
    · rw [List.mem_singleton.mp hsame] at hkey
      obtain rfl := hwants.unique hkey
      exact ⟨pk, himport.hasKey⟩
  · intro id found
    rw [hadded, List.mem_append, List.mem_singleton, hentered.entries id found]
    constructor
    · rintro (⟨other, hother, key, hid, hkey, hfound⟩ | hpair)
      · exact ⟨other, List.mem_append_left _ hother, key, hid, hkey, hkeeps found key hfound⟩
      · obtain ⟨rfl, rfl⟩ := Prod.mk.inj hpair
        exact ⟨record, hlast, wanted, hnumber, hwants, himport.hasKey⟩
    · rintro ⟨other, hother, key, hid, hkey, hfound⟩
      rcases List.mem_append.mp hother with hearlier | hsame
      · exact Or.inl ⟨other, hearlier, key, hid, hkey, hbefore other hearlier key hkey found hfound⟩
      · rw [List.mem_singleton.mp hsame] at hid hkey
        obtain rfl := hwants.unique hkey
        obtain rfl := Except.ok.inj (hnumber.symm.trans hid)
        obtain rfl := himport.unique hentered.unique found pk wanted hfound himport.hasKey
        exact Or.inr rfl

theorem Entered.imports (himporter : importerOf resource = some importer)
    (hids : DistinctIds (done ++ [record])) (hentered : Entered env importer start done ctx)
    (himports : Imports env options importer ctx record ctx') :
    Entered env importer start (done ++ [record]) ctx' := by
  have hsame : ∀ key, Wants env importer start.maps record key ↔
      Wants env importer ctx.maps record key := fun key =>
    wants_congr himporter fun kind hne => (hentered.maps kind hne).symm
  rcases himports.keys himporter with ⟨hskipped, rfl⟩ | ⟨wanted, pk, hwanted, himport⟩
  · apply hentered.skipped
    intro key hwants
    exact absurd (Except.ok.inj (hskipped.symm.trans ((hsame key).mp hwants))).symm
      (Option.some_ne_none key)
  · exact hentered.saved hids ((hsame wanted).mpr hwanted) himport fun kind hne =>
      himports.maps_ne hne

theorem DistinctIds.prefix {before after : List Value} (hids : DistinctIds (before ++ after)) :
    DistinctIds before where
  nodup := by
    have hnodup := hids.nodup
    rw [List.map_append] at hnodup
    exact hnodup.of_append_left
  number record hrecord := hids.number record (List.mem_append_left _ hrecord)

theorem entered_of_importAll {records : List Value}
    (himporter : importerOf resource = some importer)
    (hlist : client.getList importer.resource = .ok records) (hids : DistinctIds records)
    (hunique : UniqueKeys importer.kind ctx.db) (hempty : ctx.maps importer.kind = [])
    (himport : importer.importAll env options client ctx = .ok ctx') :
    Entered env importer ctx records ctx' := by
  obtain ⟨records', hrecords', hloop⟩ := bind_eq_ok himport
  obtain rfl := Except.ok.inj (hlist.symm.trans hrecords')
  apply foldlM_invariant (fun done state => Entered env importer ctx done state)
    (.start hunique hempty) _ hloop
  intro before record after hsplit state state' hentered htaken
  have hall : DistinctIds ((before ++ [record]) ++ after) := by
    rw [List.append_assoc, List.singleton_append, ← hsplit]
    exact hids
  exact hentered.imports himporter hall.prefix (imports_of_importObject htaken)

theorem Entered.congr (hentered : Entered env importer start done ctx)
    (hrows : ∀ ref, ctx'.db.get? ref = ctx.db.get? ref) (hmaps : ctx'.maps = ctx.maps) :
    Entered env importer start done ctx' := by
  have hkeys : ∀ pk key, HasKey importer.kind ctx'.db pk key ↔ HasKey importer.kind ctx.db pk key :=
    fun _ _ => hasKey_congr (hrows _)
  constructor
  · rw [hmaps]
    exact hentered.maps
  · simp only [UniqueKeys, hkeys]
    exact hentered.unique
  · simp only [hkeys]
    exact hentered.old
  · simp only [hkeys]
    exact hentered.new
  · simp only [hkeys]
    exact hentered.imported
  · simp only [hkeys, hmaps]
    exact hentered.entries

theorem Entered.get_iff {id : ℤ} (hids : DistinctIds done)
    (hentered : Entered env importer start done ctx) :
    ctx.maps.get importer.kind (.int id) = .ok (some pk) ↔
      (.int id, pk) ∈ ctx.maps importer.kind := by
  have hnumbers : ∀ entry ∈ ctx.maps importer.kind, ∃ other : ℤ, entry.1 = .int other := by
    intro entry hentry
    obtain ⟨record, hrecord, _, hid, -⟩ := (hentered.entries entry.1 entry.2).mp hentry
    obtain ⟨number, hnumber⟩ := hids.number record hrecord
    exact ⟨number, Except.ok.inj (hid.symm.trans hnumber)⟩
  have honly : ∀ other, (.int id, other) ∈ ctx.maps importer.kind →
      (.int id, pk) ∈ ctx.maps importer.kind → other = pk := by
    intro other hother hpk
    obtain ⟨record, hrecord, key, hid, hwants, hkey⟩ := (hentered.entries _ _).mp hother
    obtain ⟨record', hrecord', key', hid', hwants', hkey'⟩ := (hentered.entries _ _).mp hpk
    obtain rfl := hids.eq hrecord hrecord' (hid.trans hid'.symm)
    obtain rfl := hwants.unique hwants'
    exact hentered.unique other pk key hkey hkey'
  have hfound : ∀ entry, (ctx.maps importer.kind).find? (fun entry => entry.1.equal (.int id)) =
      some entry → entry ∈ ctx.maps importer.kind ∧ entry = (.int id, entry.2) := by
    intro entry hfind
    have hmem := List.mem_of_find?_eq_some hfind
    obtain ⟨number, hnumber⟩ := hnumbers entry hmem
    have hequal := List.find?_some hfind
    rw [hnumber, equal_int] at hequal
    subst hequal
    exact ⟨hmem, Prod.ext hnumber rfl⟩
  have hhashable : (Value.int id).hashable = true := rfl
  rw [Maps.get, if_pos hhashable]
  constructor
  · intro hget
    obtain ⟨entry, hfind, rfl⟩ := Option.map_eq_some_iff.mp (Except.ok.inj hget)
    obtain ⟨hmem, hentry⟩ := hfound entry hfind
    exact hentry ▸ hmem
  · intro hmem
    have hsome : ((ctx.maps importer.kind).find? fun entry => entry.1.equal (.int id)).isSome := by
      rw [List.find?_isSome]
      exact ⟨_, hmem, (equal_int id id).mpr rfl⟩
    obtain ⟨entry, hfind⟩ := Option.isSome_iff_exists.mp hsome
    obtain ⟨hentry, hsame⟩ := hfound entry hfind
    rw [hsame] at hentry
    rw [hfind, Option.map_some, honly entry.2 hentry hmem]

end Forail.Migration
