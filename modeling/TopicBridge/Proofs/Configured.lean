import TopicBridge.Proofs.Drafting

/-! Tables from startup parameters. Parameters give a table exactly if each topic that they name has
all three settings, these fit, and the ids are free and different. The table then holds the topics
as they are described and nothing else; otherwise the error is that of the first setting amiss, else
of the first topic that lacks one, else of the described topics as a list. -/
namespace TopicBridge.Table
variable {params : Parameters} {topic setting name : String} {value : ParamValue}
  {mapping other : TopicMapping} {mappings : List TopicMapping} {draft : Draft}
  {drafts : OrderedMap String Draft} {cause : BridgeError}

/-- A list in the strict order of its names is known by its members. -/
theorem eq_of_mem_iff {α : Type} (nameOf : α → String) {first second : List α}
    (hfirst : first.Pairwise fun a b => nameOf a < nameOf b)
    (hsecond : second.Pairwise fun a b => nameOf a < nameOf b)
    (h : ∀ a, a ∈ first ↔ a ∈ second) : first = second := by
  have hne : ∀ {a b : α}, nameOf a < nameOf b → a ≠ b := by
    rintro a _ hlt rfl
    exact Std.lt_irrefl hlt
  have hperm : first.Perm second :=
    (List.perm_ext_iff_of_nodup (hfirst.imp hne) (hsecond.imp hne)).mpr h
  refine hperm.eq_of_pairwise (fun a b _ _ hab hba => ?_) hfirst hsecond
  exact absurd (Std.lt_trans hab hba) Std.lt_irrefl

theorem isReserved_eq_false_iff {id : UInt8} :
    Topic.isReserved id = false ↔ id ≠ 0 ∧ id ≠ 1 := by
  rw [Topic.isReserved, decide_eq_false_iff_not]
  have hfirst : Topic.firstApplication = 2 := rfl
  rw [hfirst]
  constructor
  · intro h
    exact ⟨by rintro rfl; exact h (by decide), by rintro rfl; exact h (by decide)⟩
  · rintro ⟨hzero, hone⟩ hlt
    have hlt : id.toNat < 2 := hlt
    have hzero : id.toNat ≠ 0 := fun heq => hzero (UInt8.toNat_inj.mp heq)
    have hone : id.toNat ≠ 1 := fun heq => hone (UInt8.toNat_inj.mp heq)
    omega

/-- The settings of a topic are all there and say what its mapping says. -/
structure Described (params : Parameters) (mapping : TopicMapping) : Prop where
  plain : Plain mapping.name
  topicId : ∃ value n, params.find? (keyOf mapping.name "serial_mapping") = some value ∧
    value.asInt = some n ∧ n.toInt = mapping.topicId.toNat
  typeName : params.find? (keyOf mapping.name "type") = some (.string mapping.typeName)
  direction : params.find? (keyOf mapping.name "direction") =
    some (.string mapping.direction.name)
  known : mapping.direction ≠ .unknown

def missing? (params : Parameters) (topic : String) : Option String :=
  settings.find? fun setting => (params.find? (keyOf topic setting)).isNone

/-- Every topic that is named has all its settings. -/
def Whole (params : Parameters) : Prop :=
  ∀ topic, Names params.entries topic → missing? params topic = none

structure WellFormed (params : Parameters) : Prop where
  fit : AllFit params
  whole : Whole params
  free : ∀ mapping, Described params mapping → mapping.topicId ≠ 0 ∧ mapping.topicId ≠ 1
  distinct : ∀ first second, Described params first → Described params second →
    first.topicId = second.topicId → first.name = second.name

/-- What the first topic, by name, that lacks a setting reports: the first that it lacks. -/
def FirstIncomplete (params : Parameters) (cause : BridgeError) : Prop :=
  ∃ topic setting, Names params.entries topic ∧ missing? params topic = some setting ∧
    cause = .incompleteTopic topic setting ∧
    ∀ lesser < topic, Names params.entries lesser → missing? params lesser = none

/-- The described topics in the order of their names. -/
structure Lines (params : Parameters) (mappings : List TopicMapping) : Prop where
  ascending : mappings.Pairwise fun a b => a.name < b.name
  mem_iff : ∀ mapping, mapping ∈ mappings ↔ Described params mapping

theorem octet?_eq_some_iff {id : UInt8} :
    octet? value = some id ↔ ∃ n, value.asInt = some n ∧ n.toInt = id.toNat := by
  rw [octet?, Option.bind_eq_some_iff]
  refine exists_congr fun n => and_congr_right fun _ => ?_
  have hbound := id.toNat_lt
  split
  · next hrange =>
      rw [Option.some.injEq]
      constructor
      · rintro rfl
        rw [UInt8.toNat_ofNat']
        omega
      · intro heq
        rw [heq, Int.toNat_natCast, UInt8.ofNat_toNat]
  · next hrange =>
      constructor
      · intro hnone
        cases hnone
      · intro heq
        exact absurd ⟨by omega, by omega⟩ hrange

theorem direction?_eq_some_iff {direction : Direction} :
    direction? value = some direction ↔
      value = .string direction.name ∧ direction ≠ .unknown := by
  rw [direction?, Option.bind_eq_some_iff]
  constructor
  · rintro ⟨text, htext, hname⟩
    obtain rfl := asString_eq_some_iff.mp htext
    unfold Direction.ofName? at hname
    split at hname
    · cases hname
      exact ⟨rfl, by decide⟩
    · cases hname
      exact ⟨rfl, by decide⟩
    · cases hname
  · rintro ⟨rfl, hknown⟩
    refine ⟨_, rfl, ?_⟩
    cases direction with
    | serialToHost | hostToSerial => rfl
    | unknown => exact absurd rfl hknown

def draftEntry (mapping : TopicMapping) : String × Draft :=
  (mapping.name, ⟨some mapping.topicId, some mapping.typeName, some mapping.direction⟩)

theorem complete_eq_ok_iff :
    draft.complete name = .ok mapping ↔ (name, draft) = draftEntry mapping := by
  obtain ⟨topicId, typeName, direction⟩ := draft
  constructor
  · intro h
    unfold Draft.complete at h
    split at h
    · cases h
    · cases h
    · cases h
    · next hid htype hdirection =>
        cases h
        dsimp only at hid htype hdirection
        rw [hid, htype, hdirection]
        rfl
  · intro h
    obtain ⟨rfl, hdraft⟩ := Prod.mk.inj h
    obtain ⟨rfl, rfl, rfl⟩ := Draft.mk.inj hdraft
    rfl

theorem draftEntry_inj (h : draftEntry other = draftEntry mapping) : other = mapping :=
  Except.ok.inj ((complete_eq_ok_iff.mpr rfl).symm.trans (complete_eq_ok_iff.mpr h))

theorem settled_entries (params : Parameters) (topic : String) :
    settled params.entries topic =
      ⟨(params.find? (keyOf topic "serial_mapping")).bind octet?,
        (params.find? (keyOf topic "type")).bind ParamValue.asString,
        (params.find? (keyOf topic "direction")).bind direction?⟩ := rfl

/-- What is said of a topic is complete exactly if the topic is described. -/
theorem settled_eq_iff (hplain : Plain mapping.name) :
    settled params.entries mapping.name = (draftEntry mapping).2 ↔ Described params mapping := by
  rw [settled_entries, draftEntry, Draft.mk.injEq, Option.bind_eq_some_iff, Option.bind_eq_some_iff,
    Option.bind_eq_some_iff]
  constructor
  · rintro ⟨⟨value, hid, hoctet⟩, ⟨text, htype, hstring⟩, ⟨word, hdirection, hread⟩⟩
    obtain ⟨n, hint, heq⟩ := octet?_eq_some_iff.mp hoctet
    obtain rfl := asString_eq_some_iff.mp hstring
    obtain ⟨rfl, hknown⟩ := direction?_eq_some_iff.mp hread
    exact ⟨hplain, ⟨value, n, hid, hint, heq⟩, htype, hdirection, hknown⟩
  · rintro ⟨-, ⟨value, n, hid, hint, heq⟩, htype, hdirection, hknown⟩
    exact ⟨⟨value, hid, octet?_eq_some_iff.mpr ⟨n, hint, heq⟩⟩, ⟨_, htype, rfl⟩,
      ⟨_, hdirection, direction?_eq_some_iff.mpr ⟨rfl, hknown⟩⟩⟩

theorem Described.names (h : Described params mapping) : Names params.entries mapping.name :=
  ⟨_, OrderedMap.find?_eq_some_iff.mp h.typeName, "type",
    topicKey?_eq_some_iff.mpr ⟨rfl, h.plain, plain_of_mem_settings (by decide)⟩⟩

theorem AllFit.fit (h : AllFit params) (hplain : Plain topic) (hsetting : setting ∈ settings)
    (hfind : params.find? (keyOf topic setting) = some value) : Fit setting value :=
  h _ _ hfind topic setting
    (topicKey?_eq_some_iff.mpr ⟨rfl, hplain, plain_of_mem_settings hsetting⟩)

/-- A setting that fits can be taken into a draft. -/
theorem Fit.reads (h : Fit setting value) :
    (setting = "serial_mapping" → ∃ id, octet? value = some id) ∧
    (setting = "type" → ∃ typeName, value.asString = some typeName) ∧
    (setting = "direction" → ∃ direction, direction? value = some direction) := by
  cases h with
  | serialMapping hint hlow hhigh =>
      refine ⟨fun _ => ?_, fun h => absurd h (by decide), fun h => absurd h (by decide)⟩
      rw [octet?, hint]
      exact ⟨_, if_pos ⟨hlow, hhigh⟩⟩
  | type text =>
      exact ⟨fun h => absurd h (by decide), fun _ => ⟨text, rfl⟩, fun h => absurd h (by decide)⟩
  | direction htext =>
      exact ⟨fun h => absurd h (by decide), fun h => absurd h (by decide),
        fun _ => ofName?_of_fit htext⟩

/-- A topic whose settings fit is complete, or it lacks one and reports it. -/
theorem AllFit.complete (h : AllFit params) (hplain : Plain topic) :
    (missing? params topic = none ∧
      ∃ mapping, (settled params.entries topic).complete topic = .ok mapping) ∨
    ∃ setting, missing? params topic = some setting ∧
      (settled params.entries topic).complete topic = .error (.incompleteTopic topic setting) := by
  rw [settled_entries, missing?, settings, List.find?_cons, List.find?_cons, List.find?_cons]
  cases hid : params.find? (keyOf topic "serial_mapping") with
  | none => exact .inr ⟨_, rfl, rfl⟩
  | some value =>
      obtain ⟨id, hoctet⟩ := (h.fit hplain (by decide) hid).reads.1 rfl
      rw [Option.bind_some, hoctet]
      cases htype : params.find? (keyOf topic "type") with
      | none => exact .inr ⟨_, rfl, rfl⟩
      | some text =>
          obtain ⟨typeName, hstring⟩ := (h.fit hplain (by decide) htype).reads.2.1 rfl
          rw [Option.bind_some, hstring]
          cases hdirection : params.find? (keyOf topic "direction") with
          | none => exact .inr ⟨_, rfl, rfl⟩
          | some word =>
              obtain ⟨direction, hread⟩ := (h.fit hplain (by decide) hdirection).reads.2.2 rfl
              rw [Option.bind_some, hread]
              exact .inl ⟨rfl, _, rfl⟩

theorem AllFit.complete_of_whole (h : AllFit params) (hplain : Plain topic)
    (hwhole : missing? params topic = none) :
    ∃ mapping, (settled params.entries topic).complete topic = .ok mapping := by
  rcases h.complete hplain with ⟨-, hcomplete⟩ | ⟨setting, hmissing, -⟩
  · exact hcomplete
  · cases hwhole.symm.trans hmissing

theorem AllFit.complete_of_missing (h : AllFit params) (hplain : Plain topic)
    (hmissing : missing? params topic = some setting) :
    (settled params.entries topic).complete topic = .error (.incompleteTopic topic setting) := by
  rcases h.complete hplain with ⟨hwhole, -⟩ | ⟨other, hother, hcomplete⟩
  · cases hwhole.symm.trans hmissing
  · obtain rfl := Option.some.inj (hother.symm.trans hmissing)
    exact hcomplete

/-- Either all drafts are complete or one is not. -/
theorem mapM_complete_cases (entries : List (String × Draft)) :
    (∃ mappings, entries.mapM (fun entry => entry.2.complete entry.1) = .ok mappings ∧
      entries = mappings.map draftEntry) ∨
    ∃ entry ∈ entries, ∃ cause, entry.2.complete entry.1 = .error cause := by
  induction entries with
  | nil => exact .inl ⟨[], rfl, rfl⟩
  | cons entry rest ih =>
      cases hcomplete : entry.2.complete entry.1 with
      | error cause => exact .inr ⟨entry, List.mem_cons_self, cause, hcomplete⟩
      | ok mapping =>
          rcases ih with ⟨mappings, hrest, hentries⟩ | ⟨other, hmem, hother⟩
          · refine .inl ⟨mapping :: mappings, ?_, ?_⟩
            · rw [List.mapM_cons, hcomplete, hrest]
              rfl
            · rw [List.map_cons, ← hentries, ← complete_eq_ok_iff.mp hcomplete]
          · exact .inr ⟨other, List.mem_cons_of_mem _ hmem, hother⟩

theorem ofParameters_of_gathered
    (hdrafts : params.keys.foldlM (draftKey params) .empty = .ok drafts) :
    ofParameters params =
      drafts.entries.mapM (fun entry => entry.2.complete entry.1) >>= ofMappings := by
  rw [ofParameters, hdrafts]
  rfl

theorem Gathers.mem_entries_iff (h : Gathers params.entries drafts) :
    (topic, draft) ∈ drafts.entries ↔
      Names params.entries topic ∧ draft = settled params.entries topic := by
  rw [← OrderedMap.find?_eq_some_iff]
  exact h topic draft

theorem Gathers.draftEntry_mem_iff (h : Gathers params.entries drafts) :
    draftEntry mapping ∈ drafts.entries ↔ Described params mapping := by
  rw [draftEntry, h.mem_entries_iff]
  constructor
  · rintro ⟨hnames, hdraft⟩
    exact (settled_eq_iff hnames.plain).mp hdraft.symm
  · intro hdescribed
    exact ⟨hdescribed.names, ((settled_eq_iff hdescribed.plain).mpr hdescribed).symm⟩

theorem draftEntry_mem_map_iff :
    draftEntry mapping ∈ mappings.map draftEntry ↔ mapping ∈ mappings := by
  rw [List.mem_map]
  constructor
  · rintro ⟨other, hother, heq⟩
    exact draftEntry_inj heq ▸ hother
  · intro hmem
    exact ⟨mapping, hmem, rfl⟩

/-- Parameters without a fault of their own stand for a list of mappings. -/
theorem AllFit.exists_lines (hfit : AllFit params) (hwhole : Whole params) :
    ∃ mappings, Lines params mappings ∧ ofParameters params = ofMappings mappings := by
  obtain ⟨drafts, hdrafts, hgathers⟩ := hfit.gathers
  rw [ofParameters_of_gathered hdrafts]
  rcases mapM_complete_cases drafts.entries with
    ⟨mappings, hmapM, hentries⟩ | ⟨⟨topic, draft⟩, hmem, cause, hcause⟩
  · have hascending := drafts.ascending
    rw [hentries, List.pairwise_map] at hascending
    refine ⟨mappings, ⟨hascending, fun mapping => ?_⟩, by rw [hmapM]; rfl⟩
    rw [← draftEntry_mem_map_iff, ← hentries, hgathers.draftEntry_mem_iff]
  · obtain ⟨hnames, rfl⟩ := hgathers.mem_entries_iff.mp hmem
    obtain ⟨mapping, hcomplete⟩ := hfit.complete_of_whole hnames.plain (hwhole topic hnames)
    cases hcomplete.symm.trans hcause

theorem Lines.eq (h : Lines params mappings) {others : List TopicMapping}
    (hothers : Lines params others) : others = mappings :=
  eq_of_mem_iff (·.name) hothers.ascending h.ascending fun mapping =>
    (hothers.mem_iff mapping).trans (h.mem_iff mapping).symm

theorem Lines.ofParameters (h : Lines params mappings) (hfit : AllFit params)
    (hwhole : Whole params) : ofParameters params = ofMappings mappings := by
  obtain ⟨others, hothers, heq⟩ := hfit.exists_lines hwhole
  rw [heq, h.eq hothers]

theorem AllFit.whole_or_firstIncomplete (h : AllFit params) :
    Whole params ∨ ∃ cause, FirstIncomplete params cause := by
  obtain ⟨drafts, -, hgathers⟩ := h.gathers
  rcases drafts.all_or_first fun topic _ => missing? params topic = none with
    hall | ⟨topic, draft, hfind, hmissing, hbefore⟩
  · exact .inl fun topic hnames => hall topic _ ((hgathers topic _).mpr ⟨hnames, rfl⟩)
  · obtain ⟨setting, hsetting⟩ := Option.ne_none_iff_exists'.mp hmissing
    refine .inr ⟨_, topic, setting, ((hgathers topic draft).mp hfind).1, hsetting, rfl, ?_⟩
    intro lesser hlesser hnames
    exact hbefore lesser hlesser _ ((hgathers lesser _).mpr ⟨hnames, rfl⟩)

theorem AllFit.ofParameters_of_firstIncomplete (hfit : AllFit params)
    (h : FirstIncomplete params cause) : ofParameters params = .error cause := by
  obtain ⟨topic, setting, hnames, hmissing, rfl, hbefore⟩ := h
  obtain ⟨drafts, hdrafts, hgathers⟩ := hfit.gathers
  obtain ⟨front, back, hentries, hfront⟩ :=
    OrderedMap.exists_split ((hgathers topic _).mpr ⟨hnames, rfl⟩)
  rw [ofParameters_of_gathered hdrafts, hentries, List.mapM_append]
  rcases mapM_complete_cases front with ⟨mappings, hmapM, -⟩ | ⟨entry, hmem, cause, hcause⟩
  · rw [hmapM, List.mapM_cons, hfit.complete_of_missing hnames.plain hmissing]
    rfl
  · obtain ⟨hlesser, hfind⟩ := hfront entry hmem
    obtain ⟨hentry, hdraft⟩ := (hgathers _ _).mp hfind
    obtain ⟨mapping, hcomplete⟩ :=
      hfit.complete_of_whole hentry.plain (hbefore _ hlesser hentry)
    rw [hdraft, hcomplete] at hcause
    cases hcause

theorem ofParameters_of_firstAmiss (h : FirstAmiss params cause) :
    ofParameters params = .error cause := by
  rw [ofParameters, foldlM_of_firstAmiss h]
  rfl

/-- The described topics make a table if their ids do. -/
theorem Lines.admissible_iff (h : Lines params mappings) :
    Admissible mappings ↔
      (∀ mapping, Described params mapping → mapping.topicId ≠ 0 ∧ mapping.topicId ≠ 1) ∧
      ∀ first second, Described params first → Described params second →
        first.topicId = second.topicId → first.name = second.name := by
  constructor
  · intro hadmissible
    obtain ⟨table, -, hlists⟩ := lists_ofMappings hadmissible
    refine ⟨fun mapping hmapping => ?_, fun first second hfirst hsecond hid => ?_⟩
    · exact isReserved_eq_false_iff.mp (hadmissible.free mapping ((h.mem_iff mapping).mpr hmapping))
    · have hfound := hlists.find?_eq_some_iff.mpr ⟨(h.mem_iff first).mpr hfirst, hid⟩
      rw [hlists.find?_eq_some_iff.mpr ⟨(h.mem_iff second).mpr hsecond, rfl⟩] at hfound
      rw [Option.some.inj hfound]
  · rintro ⟨hfree, hdistinct⟩
    refine ⟨fun mapping hmapping => ((h.mem_iff mapping).mp hmapping).known,
      fun mapping hmapping => isReserved_eq_false_iff.mpr (hfree _ ((h.mem_iff _).mp hmapping)), ?_⟩
    refine List.pairwise_map.mpr (h.ascending.imp_of_mem fun hfirst hsecond hlt hid => ?_)
    have hname := hdistinct _ _ ((h.mem_iff _).mp hfirst) ((h.mem_iff _).mp hsecond) hid
    exact Std.ne_of_lt hlt hname

/-- A described topic is of known direction, so only ids can be at fault. -/
theorem Lines.fault_cases (h : Lines params mappings) (hfault : FirstFault mappings cause) :
    (∃ mapping ∈ mappings, cause = .reservedTopicId mapping.name mapping.topicId) ∨
      ∃ first ∈ mappings, ∃ second ∈ mappings, first.topicId = second.topicId ∧
        cause = .duplicateTopicId second.topicId first.name second.name := by
  obtain ⟨front, mapping, back, rfl, -, hfaulty⟩ := hfault
  have hmapping : mapping ∈ front ++ mapping :: back :=
    List.mem_append_right _ List.mem_cons_self
  cases hfaulty with
  | unknown hunknown => exact absurd hunknown ((h.mem_iff mapping).mp hmapping).known
  | reserved => exact .inl ⟨mapping, hmapping, rfl⟩
  | duplicate _ _ hfirst hid =>
      exact .inr ⟨_, List.mem_append_left _ hfirst, mapping, hmapping, hid, rfl⟩

/-- The parameter names that speak of topics. -/
def topicKeys (params : Parameters) : List String :=
  params.keys.filter fun key => (topicKey? key).isSome

theorem foldlM_topicKeys (params : Parameters) (drafts : OrderedMap String Draft) :
    params.keys.foldlM (draftKey params) drafts =
      (topicKeys params).foldlM (draftKey params) drafts := by
  have hskip : draftKey params = fun drafts key =>
      if (topicKey? key).isSome then draftKey params drafts key else pure drafts := by
    funext drafts key
    rw [draftKey]
    cases topicKey? key with
    | none => rfl
    | some pair => rfl
  rw [topicKeys, List.foldlM_filter, ← hskip]

/-- The same topic keys with the same values. -/
def SameTopics (params others : Parameters) : Prop :=
  ∀ key, (topicKey? key).isSome → others.find? key = params.find? key

theorem SameTopics.draftKey_eq {others : Parameters} (h : SameTopics params others) :
    draftKey others = draftKey params := by
  funext drafts key
  rw [draftKey, draftKey]
  cases hkey : topicKey? key with
  | none => rfl
  | some pair =>
      have hrequire : others.require key = params.require key := by
        rw [Parameters.require, Parameters.require, h key (by rw [hkey]; rfl)]
      simp only [Draft.read, Parameters.requireNat, Parameters.requireWithin,
        Parameters.requireInt, Parameters.requireString, hrequire]

theorem mem_topicKeys {key : String} :
    key ∈ topicKeys params ↔ (topicKey? key).isSome ∧ ∃ value, params.find? key = some value := by
  rw [topicKeys, List.mem_filter, and_comm, OrderedMap.keys, List.mem_map]
  refine and_congr_right fun _ => ?_
  constructor
  · rintro ⟨⟨key, value⟩, hmem, rfl⟩
    exact ⟨value, OrderedMap.find?_eq_some_iff.mpr hmem⟩
  · rintro ⟨value, hfind⟩
    exact ⟨_, OrderedMap.find?_eq_some_iff.mp hfind, rfl⟩

theorem topicKeys_ascending (params : Parameters) :
    (topicKeys params).Pairwise fun a b => a < b :=
  (List.pairwise_map.mpr params.ascending).filter _

theorem SameTopics.ofParameters_eq {others : Parameters} (h : SameTopics params others) :
    ofParameters others = ofParameters params := by
  have hkeys : topicKeys others = topicKeys params := by
    refine eq_of_mem_iff id (topicKeys_ascending others) (topicKeys_ascending params)
      fun key => ?_
    rw [mem_topicKeys, mem_topicKeys]
    refine and_congr_right fun hkey => ?_
    rw [h key hkey]
  rw [ofParameters, ofParameters, foldlM_topicKeys, foldlM_topicKeys, hkeys, h.draftKey_eq]

/-- A setting is amiss, or else a topic lacks one, or else the described topics decide. -/
theorem ofParameters_cases (params : Parameters) :
    (∃ cause, FirstAmiss params cause ∧ ofParameters params = .error cause) ∨
    (AllFit params ∧ ∃ cause, FirstIncomplete params cause ∧
      ofParameters params = .error cause) ∨
    AllFit params ∧ Whole params ∧
      ∃ mappings, Lines params mappings ∧ ofParameters params = ofMappings mappings := by
  rcases fits_or_firstAmiss params with hfit | ⟨cause, hamiss⟩
  · rcases hfit.whole_or_firstIncomplete with hwhole | ⟨cause, hincomplete⟩
    · exact .inr (.inr ⟨hfit, hwhole, hfit.exists_lines hwhole⟩)
    · exact .inr (.inl
        ⟨hfit, cause, hincomplete, hfit.ofParameters_of_firstIncomplete hincomplete⟩)
  · exact .inl ⟨cause, hamiss, ofParameters_of_firstAmiss hamiss⟩

theorem ofParameters_eq_ok_iff :
    (∃ table, ofParameters params = .ok table) ↔ WellFormed params := by
  constructor
  · rintro ⟨table, htable⟩
    rcases ofParameters_cases params with
      ⟨cause, -, herror⟩ | ⟨-, cause, -, herror⟩ | ⟨hfit, hwhole, mappings, hlines, heq⟩
    · cases herror.symm.trans htable
    · cases herror.symm.trans htable
    · obtain ⟨hfree, hdistinct⟩ :=
        hlines.admissible_iff.mp (lists_of_ofMappings (heq.symm.trans htable)).admissible
      exact ⟨hfit, hwhole, hfree, hdistinct⟩
  · rintro ⟨hfit, hwhole, hfree, hdistinct⟩
    obtain ⟨mappings, hlines, heq⟩ := hfit.exists_lines hwhole
    rw [heq]
    exact ofMappings_eq_ok_iff.mpr (hlines.admissible_iff.mpr ⟨hfree, hdistinct⟩)

theorem ofParameters_eq_error_iff :
    ofParameters params = .error cause ↔
      FirstAmiss params cause ∨ AllFit params ∧ FirstIncomplete params cause ∨
        AllFit params ∧ Whole params ∧
          ∃ mappings, Lines params mappings ∧ FirstFault mappings cause := by
  constructor
  · intro herror
    rcases ofParameters_cases params with ⟨other, hamiss, hother⟩ |
      ⟨hfit, other, hincomplete, hother⟩ | ⟨hfit, hwhole, mappings, hlines, heq⟩
    · cases hother.symm.trans herror
      exact .inl hamiss
    · cases hother.symm.trans herror
      exact .inr (.inl ⟨hfit, hincomplete⟩)
    · have hfault := ofMappings_eq_error_iff.mp (heq.symm.trans herror)
      exact .inr (.inr ⟨hfit, hwhole, mappings, hlines, hfault⟩)
  · rintro (hamiss | ⟨hfit, hincomplete⟩ | ⟨hfit, hwhole, mappings, hlines, hfault⟩)
    · exact ofParameters_of_firstAmiss hamiss
    · exact hfit.ofParameters_of_firstIncomplete hincomplete
    · rw [hlines.ofParameters hfit hwhole]
      exact ofMappings_eq_error_iff.mpr hfault

theorem WellFormed.lists (h : WellFormed params) {table : Table}
    (htable : ofParameters params = .ok table) :
    ∃ mappings, Lines params mappings ∧ table.Lists mappings := by
  obtain ⟨mappings, hlines, heq⟩ := h.fit.exists_lines h.whole
  exact ⟨mappings, hlines, lists_of_ofMappings (heq.symm.trans htable)⟩

/-- There is one mapping for each topic that is named, and no other. -/
theorem WellFormed.described (h : WellFormed params) (hnames : Names params.entries topic) :
    ∃ mapping, mapping.name = topic ∧ Described params mapping := by
  obtain ⟨mapping, hcomplete⟩ := h.fit.complete_of_whole hnames.plain (h.whole topic hnames)
  obtain ⟨rfl, hdraft⟩ := Prod.mk.inj (complete_eq_ok_iff.mp hcomplete)
  exact ⟨mapping, rfl, (settled_eq_iff hnames.plain).mp hdraft⟩

theorem Described.eq (h : Described params mapping) (hother : Described params other)
    (hname : other.name = mapping.name) : other = mapping := by
  have hentry : draftEntry other = draftEntry mapping := by
    refine Prod.ext hname ?_
    rw [← (settled_eq_iff h.plain).mpr h, ← (settled_eq_iff hother.plain).mpr hother, hname]
  exact draftEntry_inj hentry

/-- Parameters are accepted if and only if they are well formed: every topic key has a setting that
fits, every topic that is named has all three, and the ids are different and none is reserved. The
table then has one mapping for each named topic, as it is described, and no other. The error of
other parameters is that of the first topic key whose setting is amiss; else of the first topic by
name that lacks a setting, with the first that it lacks; else of the described topics by name, of
which one id is reserved or occurs twice. Names of another form do not count. -/
theorem accepts_well_formed_parameters (params : Parameters) :
    ((∃ table, ofParameters params = .ok table) ↔ WellFormed params) ∧
    (∀ table, ofParameters params = .ok table →
      (∀ mapping, mapping ∈ table.mappings ↔ Described params mapping) ∧
      ∀ topic, Names params.entries topic ↔
        ∃ mapping ∈ table.mappings, mapping.name = topic ∧
          ∀ other ∈ table.mappings, other.name = topic → other = mapping) ∧
    (∀ cause, ofParameters params = .error cause ↔
      FirstAmiss params cause ∨ AllFit params ∧ FirstIncomplete params cause ∨
        AllFit params ∧ Whole params ∧
          ∃ mappings, Lines params mappings ∧ FirstFault mappings cause) ∧
    (∀ mappings cause, Lines params mappings → FirstFault mappings cause →
      (∃ mapping ∈ mappings, cause = .reservedTopicId mapping.name mapping.topicId) ∨
        ∃ first ∈ mappings, ∃ second ∈ mappings, first.topicId = second.topicId ∧
          cause = .duplicateTopicId second.topicId first.name second.name) ∧
    ∀ others : Parameters,
      (∀ key, (topicKey? key).isSome → others.find? key = params.find? key) →
        ofParameters others = ofParameters params := by
  refine ⟨ofParameters_eq_ok_iff, fun table htable => ?_, fun cause => ofParameters_eq_error_iff,
    fun mappings cause => Lines.fault_cases, fun others => SameTopics.ofParameters_eq⟩
  have hwell : WellFormed params := ofParameters_eq_ok_iff.mp ⟨table, htable⟩
  obtain ⟨mappings, hlines, hlists⟩ := hwell.lists htable
  have hmem : ∀ mapping, mapping ∈ table.mappings ↔ Described params mapping := fun mapping =>
    hlists.perm.mem_iff.trans (hlines.mem_iff mapping)
  refine ⟨hmem, fun topic => ⟨fun hnames => ?_, ?_⟩⟩
  · obtain ⟨mapping, rfl, hdescribed⟩ := hwell.described hnames
    refine ⟨mapping, (hmem mapping).mpr hdescribed, rfl, fun other hother hname => ?_⟩
    exact hdescribed.eq ((hmem other).mp hother) hname
  · rintro ⟨mapping, hmapping, rfl, -⟩
    exact ((hmem mapping).mp hmapping).names

/-- The topic that lacks a setting is the fault, though its id is reserved. -/
example :
    ofParameters (.ofList [("topics.b.type", .string "B"), ("topics.a.serial_mapping", .int 1),
      ("log.level", .bool true), ("topics.a.type", .string "A")]) =
    .error (.incompleteTopic "a" "direction") := rfl

end TopicBridge.Table
