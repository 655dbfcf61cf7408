import TopicBridge.Proofs.Listing
import TopicBridge.Proofs.TopicKeys

/-! What startup parameters say of topics, setting by setting. While every setting read so far fits,
the drafts hold for each topic named so far just what the parameters read so far say of it. -/
namespace TopicBridge

namespace OrderedMap
variable {κ ν : Type} [LT κ] [DecidableEq κ] [LE κ] [Std.IsLinearOrder κ] [Std.LawfulOrderLT κ]
  {map : OrderedMap κ ν} {key : κ} {value : ν}

/-- The entries in front of one have the lesser keys. -/
theorem exists_split (h : map.find? key = some value) :
    ∃ front back, map.entries = front ++ (key, value) :: back ∧
      ∀ entry ∈ front, entry.1 < key ∧ map.find? entry.1 = some entry.2 := by
  obtain ⟨front, back, hentries⟩ := List.append_of_mem (find?_eq_some_iff.mp h)
  refine ⟨front, back, hentries, fun entry hentry => ⟨?_, ?_⟩⟩
  · have hascending := map.ascending
    rw [hentries] at hascending
    exact (List.pairwise_append.mp hascending).2.2 entry hentry _ List.mem_cons_self
  · rw [find?_eq_some_iff, hentries]
    exact List.mem_append_left _ hentry

/-- Either all entries have a property, or some entry is the first without it. -/
theorem all_or_first (map : OrderedMap κ ν) (good : κ → ν → Prop) :
    (∀ key value, map.find? key = some value → good key value) ∨
      ∃ key value, map.find? key = some value ∧ ¬ good key value ∧
        ∀ lesser < key, ∀ other, map.find? lesser = some other → good lesser other := by
  obtain ⟨entries, hascending⟩ := map
  simp only [find?_eq_some_iff]
  induction entries with
  | nil => exact .inl fun _ _ hmem => absurd hmem List.not_mem_nil
  | cons first rest ih =>
      obtain ⟨hfirst, hrest⟩ := List.pairwise_cons.mp hascending
      by_cases hgood : good first.1 first.2
      · rcases ih hrest with hall | ⟨key, value, hmem, hbad, hbefore⟩
        · refine .inl fun key value hmem => ?_
          rcases List.mem_cons.mp hmem with rfl | hmem
          · exact hgood
          · exact hall key value hmem
        · refine .inr ⟨key, value, List.mem_cons_of_mem _ hmem, hbad, ?_⟩
          intro lesser hlesser other hother
          rcases List.mem_cons.mp hother with rfl | hother
          · exact hgood
          · exact hbefore lesser hlesser other hother
      · refine .inr ⟨first.1, first.2, List.mem_cons_self, hgood, ?_⟩
        intro lesser hlesser other hother
        rcases List.mem_cons.mp hother with rfl | hother
        · exact absurd hlesser Std.lt_irrefl
        · exact absurd (Std.lt_trans hlesser (hfirst _ hother)) Std.lt_irrefl

end OrderedMap

namespace Table
variable {params : Parameters} {key topic setting : String} {value : ParamValue}
  {cause : BridgeError} {front back : List (String × ParamValue)}
  {drafts : OrderedMap String Draft}

/-- A setting that there is, with a value of its kind. -/
inductive Fit : String → ParamValue → Prop
  | serialMapping {value : ParamValue} {n : Int64} : value.asInt = some n → 0 ≤ n.toInt →
      n.toInt ≤ 255 → Fit "serial_mapping" value
  | type (text : String) : Fit "type" (.string text)
  | direction {text : String} : text = "SerialToROS2" ∨ text = "ROS2ToSerial" →
      Fit "direction" (.string text)

/-- What is wrong with a setting of a topic and the value under its name. -/
inductive Amiss (key topic : String) : String → ParamValue → BridgeError → Prop
  | unknownSetting {setting : String} {value : ParamValue} : setting ∉ settings →
      Amiss key topic setting value
        (.invalidParameter key s!"unknown topic setting '{setting}'")
  | noInteger {value : ParamValue} : value.asInt = none →
      Amiss key topic "serial_mapping" value (Parameters.wrongType key "integer" value)
  | outOfRange {value : ParamValue} {n : Int64} : value.asInt = some n →
      ¬ (0 ≤ n.toInt ∧ n.toInt ≤ 255) →
      Amiss key topic "serial_mapping" value
        (.invalidParameter key s!"{n.toInt} is out of range")
  | noType {value : ParamValue} : value.asString = none →
      Amiss key topic "type" value (Parameters.wrongType key "string" value)
  | noDirection {value : ParamValue} : value.asString = none →
      Amiss key topic "direction" value (Parameters.wrongType key "string" value)
  | unknownDirection {text : String} : text ≠ "SerialToROS2" → text ≠ "ROS2ToSerial" →
      Amiss key topic "direction" (.string text) (.invalidDirection topic text)

theorem asString_eq_some_iff {text : String} :
    value.asString = some text ↔ value = .string text := by
  cases value <;> simp [ParamValue.asString]

theorem asString_string (text : String) : (ParamValue.string text).asString = some text := rfl

theorem fit_or_amiss (key topic setting : String) (value : ParamValue) :
    Fit setting value ∨ ∃ cause, Amiss key topic setting value cause := by
  by_cases hsetting : setting ∈ settings
  · simp only [settings, List.mem_cons, List.not_mem_nil, or_false] at hsetting
    rcases hsetting with rfl | rfl | rfl
    · cases hint : value.asInt with
      | none => exact .inr ⟨_, .noInteger hint⟩
      | some n =>
          by_cases hrange : 0 ≤ n.toInt ∧ n.toInt ≤ 255
          · exact .inl (.serialMapping hint hrange.1 hrange.2)
          · exact .inr ⟨_, .outOfRange hint hrange⟩
    · cases htext : value.asString with
      | none => exact .inr ⟨_, .noType htext⟩
      | some text =>
          rw [asString_eq_some_iff.mp htext]
          exact .inl (.type text)
    · cases htext : value.asString with
      | none => exact .inr ⟨_, .noDirection htext⟩
      | some text =>
          rw [asString_eq_some_iff.mp htext]
          by_cases hinbound : text = "SerialToROS2"
          · exact .inl (.direction (.inl hinbound))
          · by_cases houtbound : text = "ROS2ToSerial"
            · exact .inl (.direction (.inr houtbound))
            · exact .inr ⟨_, .unknownDirection hinbound houtbound⟩
  · exact .inr ⟨_, .unknownSetting hsetting⟩

theorem contains_octet (n : Int) :
    (Text.IntegerRange.unsigned 8).contains n = decide (0 ≤ n ∧ n ≤ 255) := by
  rw [Text.IntegerRange.contains, Bool.decide_and]
  rfl

theorem requireNat_of_find? (h : params.find? key = some value) :
    params.requireNat 8 key =
      match value.asInt with
      | none => .error (Parameters.wrongType key "integer" value)
      | some n =>
          if 0 ≤ n.toInt ∧ n.toInt ≤ 255 then .ok n.toInt.toNat
          else .error (.invalidParameter key s!"{n.toInt} is out of range") := by
  rw [Parameters.requireNat, Parameters.requireWithin, Parameters.requireInt, Parameters.require, h]
  change Except.map Int.toNat (Parameters.intOf key value >>= Parameters.inRange _ key) = _
  rw [Parameters.intOf]
  cases value.asInt with
  | none => rfl
  | some n =>
      change Except.map Int.toNat (Parameters.inRange _ key n.toInt) = _
      rw [Parameters.inRange, contains_octet]
      by_cases hrange : 0 ≤ n.toInt ∧ n.toInt ≤ 255
      · simp [hrange, Except.map]
      · simp [hrange, Except.map]

theorem requireString_of_find? (h : params.find? key = some value) :
    params.requireString key = Parameters.stringOf key value := by
  rw [Parameters.requireString, Parameters.require, h]
  rfl

theorem ofName?_of_fit {text : String} (h : text = "SerialToROS2" ∨ text = "ROS2ToSerial") :
    ∃ direction, Direction.ofName? text = some direction := by
  rcases h with rfl | rfl
  · exact ⟨.serialToHost, rfl⟩
  · exact ⟨.hostToSerial, rfl⟩

theorem ofName?_of_ne {text : String} (hinbound : text ≠ "SerialToROS2")
    (houtbound : text ≠ "ROS2ToSerial") : Direction.ofName? text = none := by
  unfold Direction.ofName?
  split
  · exact absurd rfl hinbound
  · exact absurd rfl houtbound
  · rfl

theorem read_of_amiss (hfind : params.find? key = some value)
    (h : Amiss key topic setting value cause) (draft : Draft) :
    draft.read params key topic setting = .error cause := by
  cases h with
  | unknownSetting hsetting =>
      simp only [settings, List.mem_cons, List.not_mem_nil, or_false, not_or] at hsetting
      unfold Draft.read
      split
      · exact absurd rfl hsetting.1
      · exact absurd rfl hsetting.2.1
      · exact absurd rfl hsetting.2.2
      · rfl
  | noInteger hint => simp [Draft.read, requireNat_of_find? hfind, hint, Except.map]
  | outOfRange hint hrange =>
      simp [Draft.read, requireNat_of_find? hfind, hint, hrange, Except.map]
  | noType htext =>
      simp [Draft.read, requireString_of_find? hfind, Parameters.stringOf, htext, Except.map]
  | noDirection htext =>
      simp [Draft.read, requireString_of_find? hfind, Parameters.stringOf, htext, bind, Except.bind]
  | unknownDirection hinbound houtbound =>
      simp [Draft.read, requireString_of_find? hfind, Parameters.stringOf, asString_string,
        bind, Except.bind, ofName?_of_ne hinbound houtbound]

def lookUp (entries : List (String × ParamValue)) (key : String) : Option ParamValue :=
  (entries.find? fun entry => entry.1 = key).map (·.2)

/-- The id that a value is, if it is an octet. -/
def octet? (value : ParamValue) : Option UInt8 :=
  value.asInt.bind fun n =>
    if 0 ≤ n.toInt ∧ n.toInt ≤ 255 then some (UInt8.ofNat n.toInt.toNat) else none

def direction? (value : ParamValue) : Option Direction := value.asString.bind Direction.ofName?

/-- What entries say of a topic. -/
def settled (entries : List (String × ParamValue)) (topic : String) : Draft :=
  { topicId := (lookUp entries (keyOf topic "serial_mapping")).bind octet?
    typeName := (lookUp entries (keyOf topic "type")).bind ParamValue.asString
    direction := (lookUp entries (keyOf topic "direction")).bind direction? }

/-- Some parameter name speaks of the topic. -/
def Names (entries : List (String × ParamValue)) (topic : String) : Prop :=
  ∃ entry ∈ entries, ∃ setting, topicKey? entry.1 = some (topic, setting)

theorem lookUp_concat (hfresh : ∀ entry ∈ front, entry.1 ≠ key) (other : String) :
    lookUp (front ++ [(key, value)]) other =
      if other = key then some value else lookUp front other := by
  rw [lookUp, List.find?_append]
  by_cases hother : other = key
  · subst hother
    have hnone : (front.find? fun entry => entry.1 = other) = none :=
      List.find?_eq_none.mpr fun entry hentry => by simpa using hfresh entry hentry
    simp [hnone]
  · simp [lookUp, hother, Ne.symm hother]

theorem lookUp_of_not_names (hplain : Plain topic) (hsetting : setting ∈ settings)
    (hnot : ¬ Names front topic) : lookUp front (keyOf topic setting) = none := by
  rw [lookUp, Option.map_eq_none_iff, List.find?_eq_none]
  intro entry hentry hkey
  exact hnot ⟨entry, hentry, setting, topicKey?_eq_some_iff.mpr
    ⟨of_decide_eq_true hkey, hplain, plain_of_mem_settings hsetting⟩⟩

theorem settled_of_not_names (hplain : Plain topic) (hnot : ¬ Names front topic) :
    settled front topic = {} := by
  rw [settled, lookUp_of_not_names hplain (by decide) hnot,
    lookUp_of_not_names hplain (by decide) hnot, lookUp_of_not_names hplain (by decide) hnot]
  rfl

theorem names_concat :
    Names (front ++ [(key, value)]) topic ↔
      Names front topic ∨ ∃ setting, topicKey? key = some (topic, setting) := by
  simp [Names, or_and_right, exists_or]

/-- An entry under another topic's name or none says nothing of a topic. -/
theorem settled_concat_of_ne (hfresh : ∀ entry ∈ front, entry.1 ≠ key) (hplain : Plain topic)
    (hother : ∀ setting, topicKey? key ≠ some (topic, setting)) :
    settled (front ++ [(key, value)]) topic = settled front topic := by
  have hne : ∀ setting ∈ settings, keyOf topic setting ≠ key := by
    rintro setting hsetting rfl
    exact hother setting (topicKey?_eq_some_iff.mpr
      ⟨rfl, hplain, plain_of_mem_settings hsetting⟩)
  simp only [settled, lookUp_concat hfresh]
  rw [if_neg (hne _ (by decide)), if_neg (hne _ (by decide)), if_neg (hne _ (by decide))]

/-- A setting that fits is taken into the draft, and only it. -/
theorem read_of_fit (hfind : params.find? key = some value)
    (hkey : topicKey? key = some (topic, setting)) (hfit : Fit setting value)
    (hfresh : ∀ entry ∈ front, entry.1 ≠ key) :
    (settled front topic).read params key topic setting =
      .ok (settled (front ++ [(key, value)]) topic) := by
  obtain ⟨hjoined, -, -⟩ := topicKey?_eq_some_iff.mp hkey
  have hlook : ∀ other, lookUp (front ++ [(key, value)]) (keyOf topic other) =
      if other = setting then some value else lookUp front (keyOf topic other) := by
    intro other
    rw [lookUp_concat hfresh, hjoined]
    simp only [keyOf_inj]
  simp only [settled, hlook]
  cases hfit with
  | serialMapping hint hlow hhigh =>
      simp [Draft.read, requireNat_of_find? hfind, hint, hlow, hhigh, Except.map, octet?]
  | type text =>
      simp [Draft.read, requireString_of_find? hfind, Parameters.stringOf, asString_string,
        Except.map]
  | direction htext =>
      obtain ⟨direction, hdirection⟩ := ofName?_of_fit htext
      simp [Draft.read, requireString_of_find? hfind, Parameters.stringOf, asString_string,
        bind, Except.bind, direction?, hdirection]

/-- If a parameter name speaks of a topic, the setting fits. -/
def Fits (key : String) (value : ParamValue) : Prop :=
  ∀ topic setting, topicKey? key = some (topic, setting) → Fit setting value

/-- Every topic key has a setting that fits. -/
def AllFit (params : Parameters) : Prop :=
  ∀ key value, params.find? key = some value → Fits key value

/-- The drafts are of the topics that the entries name, and hold what these say of them. -/
def Gathers (entries : List (String × ParamValue)) (drafts : OrderedMap String Draft) : Prop :=
  ∀ topic draft, drafts.find? topic = some draft ↔
    Names entries topic ∧ draft = settled entries topic

theorem gathers_empty : Gathers [] .empty := by
  intro topic draft
  constructor
  · nofun
  · rintro ⟨⟨entry, hentry, -⟩, -⟩
    cases hentry

/-- The draft so far, also of a topic that comes up for the first time. -/
theorem Gathers.getD (h : Gathers front drafts) (hplain : Plain topic) :
    (drafts.find? topic).getD {} = settled front topic := by
  cases hfind : drafts.find? topic with
  | none =>
      have hnot : ¬ Names front topic := by
        intro hnames
        rw [(h topic _).mpr ⟨hnames, rfl⟩] at hfind
        cases hfind
      rw [settled_of_not_names hplain hnot]
      rfl
  | some draft => exact ((h topic draft).mp hfind).2

theorem Names.plain (h : Names front topic) : Plain topic := by
  obtain ⟨entry, -, setting, hkey⟩ := h
  exact (topicKey?_eq_some_iff.mp hkey).2.1

/-- One entry that fits, under any name, is taken into the drafts. -/
theorem Gathers.step (h : Gathers front drafts) (hfresh : ∀ entry ∈ front, entry.1 ≠ key)
    (hfind : params.find? key = some value) (hfits : Fits key value) :
    ∃ next, draftKey params drafts key = .ok next ∧ Gathers (front ++ [(key, value)]) next := by
  rw [draftKey]
  cases hkey : topicKey? key with
  | none =>
      refine ⟨drafts, rfl, fun topic draft => ?_⟩
      have hother : ∀ topic setting, topicKey? key ≠ some (topic, setting) := by simp [hkey]
      rw [h topic draft, names_concat]
      constructor
      · rintro ⟨hnames, hdraft⟩
        rw [settled_concat_of_ne hfresh hnames.plain (hother topic)]
        exact ⟨.inl hnames, hdraft⟩
      · rintro ⟨hnames | ⟨setting, hsetting⟩, hdraft⟩
        · rw [settled_concat_of_ne hfresh hnames.plain (hother topic)] at hdraft
          exact ⟨hnames, hdraft⟩
        · exact absurd hsetting (hother topic setting)
  | some pair =>
      obtain ⟨topic, setting⟩ := pair
      have hplain := (topicKey?_eq_some_iff.mp hkey).2.1
      dsimp only
      rw [h.getD hplain, read_of_fit hfind hkey (hfits topic setting hkey) hfresh]
      refine ⟨_, rfl, fun other draft => ?_⟩
      rw [OrderedMap.find?_insert, names_concat]
      by_cases hsame : other = topic
      · subst hsame
        rw [if_pos rfl, Option.some.injEq]
        constructor
        · rintro rfl
          exact ⟨.inr ⟨setting, hkey⟩, rfl⟩
        · rintro ⟨-, rfl⟩
          rfl
      · have hother : ∀ setting, topicKey? key ≠ some (other, setting) := by
          intro setting hsetting
          rw [hkey] at hsetting
          exact hsame (Prod.mk.inj (Option.some.inj hsetting)).1.symm
        rw [if_neg hsame, h other draft]
        constructor
        · rintro ⟨hnames, hdraft⟩
          rw [settled_concat_of_ne hfresh hnames.plain hother]
          exact ⟨.inl hnames, hdraft⟩
        · rintro ⟨hnames | ⟨setting, hsetting⟩, hdraft⟩
          · rw [settled_concat_of_ne hfresh hnames.plain hother] at hdraft
            exact ⟨hnames, hdraft⟩
          · exact absurd hsetting (hother setting)

/-- Entries that fit, in any order, are all taken into the drafts. -/
theorem Gathers.foldlM (h : Gathers front drafts)
    (hdistinct : (front ++ back).Pairwise fun a b => a.1 ≠ b.1)
    (hback : ∀ entry ∈ back, params.find? entry.1 = some entry.2 ∧ Fits entry.1 entry.2) :
    ∃ next, (back.map (·.1)).foldlM (draftKey params) drafts = .ok next ∧
      Gathers (front ++ back) next := by
  induction back generalizing front drafts with
  | nil => exact ⟨drafts, rfl, (List.append_nil front).symm ▸ h⟩
  | cons entry rest ih =>
      obtain ⟨⟨hfind, hfits⟩, hrest⟩ := List.forall_mem_cons.mp hback
      have hfresh : ∀ earlier ∈ front, earlier.1 ≠ entry.1 := fun earlier hearlier =>
        (List.pairwise_append.mp hdistinct).2.2 earlier hearlier entry List.mem_cons_self
      obtain ⟨middle, hmiddle, hgathers⟩ := h.step hfresh hfind hfits
      rw [List.append_cons] at hdistinct ⊢
      obtain ⟨next, hnext, hlast⟩ := ih hgathers hdistinct hrest
      refine ⟨next, ?_, hlast⟩
      rw [List.map_cons, List.foldlM_cons, hmiddle]
      exact hnext

/-- What the first topic key that is amiss reports. -/
def FirstAmiss (params : Parameters) (cause : BridgeError) : Prop :=
  ∃ key value topic setting, params.find? key = some value ∧
    topicKey? key = some (topic, setting) ∧ Amiss key topic setting value cause ∧
    ∀ lesser < key, ∀ other, params.find? lesser = some other → Fits lesser other

theorem AllFit.gathers (h : AllFit params) :
    ∃ drafts, params.keys.foldlM (draftKey params) .empty = .ok drafts ∧
      Gathers params.entries drafts := by
  have hfits : ∀ entry ∈ params.entries,
      params.find? entry.1 = some entry.2 ∧ Fits entry.1 entry.2 := by
    intro entry hentry
    have hfind := OrderedMap.find?_eq_some_iff.mpr hentry
    exact ⟨hfind, h _ _ hfind⟩
  exact gathers_empty.foldlM (params.ascending.imp fun hlt => Std.ne_of_lt hlt) hfits

theorem foldlM_of_firstAmiss (h : FirstAmiss params cause) :
    params.keys.foldlM (draftKey params) .empty = .error cause := by
  obtain ⟨key, value, topic, setting, hfind, hkey, hamiss, hbefore⟩ := h
  obtain ⟨front, back, hentries, hfront⟩ := OrderedMap.exists_split hfind
  have hdistinct : front.Pairwise fun a b => a.1 ≠ b.1 := by
    have hascending := params.ascending
    rw [hentries] at hascending
    exact (List.pairwise_append.mp hascending).1.imp fun hlt => Std.ne_of_lt hlt
  obtain ⟨drafts, hdrafts, -⟩ := gathers_empty.foldlM hdistinct fun entry hentry =>
    ⟨(hfront entry hentry).2, hbefore _ (hfront entry hentry).1 _ (hfront entry hentry).2⟩
  have hstep : draftKey params drafts key = .error cause := by
    rw [draftKey, hkey]
    dsimp only
    rw [read_of_amiss hfind hamiss]
    rfl
  rw [OrderedMap.keys, hentries, List.map_append, List.foldlM_append, hdrafts]
  change (key :: back.map (·.1)).foldlM (draftKey params) drafts = _
  rw [List.foldlM_cons, hstep]
  rfl

theorem fits_or_firstAmiss (params : Parameters) :
    AllFit params ∨ ∃ cause, FirstAmiss params cause := by
  rcases params.all_or_first Fits with hall | ⟨key, value, hfind, hnot, hbefore⟩
  · exact .inl hall
  · obtain ⟨topic, hnot⟩ := Classical.not_forall.mp hnot
    obtain ⟨setting, hnot⟩ := Classical.not_forall.mp hnot
    obtain ⟨hkey, hnot⟩ := Classical.not_imp.mp hnot
    rcases fit_or_amiss key topic setting value with hfit | ⟨cause, hamiss⟩
    · exact absurd hfit hnot
    · exact .inr ⟨cause, key, value, topic, setting, hfind, hkey, hamiss, hbefore⟩

end Table
end TopicBridge
