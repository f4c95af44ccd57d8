import BlockFlow.Json.Record
import BlockFlow.Proofs.Json.RoundTrip
import Mathlib.Data.List.Forall2

/-!
# Records with missing and with ill-typed fields

The names in a record are plain and none occurs twice. `Json.without` removes members by their
names, at every level. The fields of such a record are then those that were not removed
(`fields?_without`).

A `Schema` says of each field of a record which values it takes. A value is well typed if it is a
record at all and every field that it gives, by name or by position, takes the value that it gives
to it. Whatever a record is read from is well typed if each field that is given is
(`wellTyped_of_fields?`).
-/

set_option autoImplicit false

namespace BlockFlow.Json

/-! ## Names -/

instance : DecidablePred Literal.Plain := fun l =>
  List.decidableBAll (fun c => c ≠ '"' ∧ c ≠ '\\' ∧ 0x20 ≤ c.toNat) l.raw

theorem Literal.decodeChars_eq {cs : List Char} (h : '\\' ∉ cs) : decodeChars cs = some cs := by
  induction cs with
  | nil => rw [decodeChars]
  | cons c cs ih =>
    have hc : c ≠ '\\' := fun hc => h (hc ▸ List.mem_cons_self)
    rw [decodeChars, ih fun hmem => h (.tail c hmem)]
    · rfl
    all_goals
      intros
      exact absurd ‹c = '\\'› hc

/-- A plain name stands for itself. -/
theorem Literal.Plain.decode?_eq {name : String} (h : (plain name).Plain) :
    (plain name).decode? = some name := by
  have hslash : '\\' ∉ (plain name).raw := fun hc => (h '\\' hc).2.1 rfl
  rw [decode?, decodeChars_eq hslash, Option.map_some, plain, String.ofList_toList]

/-- The members of a record: plain names, none of them twice. -/
structure Members (members : List (String × Json)) : Prop where
  plain : ∀ m ∈ members, (Literal.plain m.1).Plain
  nodup : (members.map Prod.fst).Nodup

theorem Members.of_names {members : List (String × Json)} {names : List String}
    (hmembers : members.map Prod.fst = names) (hplain : ∀ name ∈ names, (Literal.plain name).Plain)
    (hnodup : names.Nodup) : Members members := by
  subst hmembers
  exact ⟨fun m hm => hplain m.1 (List.mem_map_of_mem hm), hnodup⟩

theorem written_record {members : List (String × Json)} (h : Members members)
    (hvalues : ∀ m ∈ members, m.2.Written) : (record members).Written := by
  refine .object (fun m hm => ?_) (fun m hm => ?_)
  · obtain ⟨n, hn, rfl⟩ := List.mem_map.1 hm
    exact h.plain n hn
  · obtain ⟨n, hn, rfl⟩ := List.mem_map.1 hm
    exact hvalues n hn

theorem written_ofNat (n : Nat) : (ofNat n).Written := .number (Numeral.wellFormed_ofNat n)

/-! ## Removing members -/

mutual

/-- The value without the members of these names, at every level. -/
def without (removed : List String) : Json → Json
  | .array items => .array (itemsWithout removed items)
  | .object members => .object (membersWithout removed members)
  | v => v

/-- The items without the members of these names in them. -/
def itemsWithout (removed : List String) : List Json → List Json
  | [] => []
  | v :: rest => without removed v :: itemsWithout removed rest

/-- The members but those of these names. -/
def membersWithout (removed : List String) : List (Literal × Json) → List (Literal × Json)
  | [] => []
  | (k, v) :: rest =>
    if removed.any fun name => k.decode? = some name then membersWithout removed rest
    else (k, without removed v) :: membersWithout removed rest

end

variable {removed : List String}

theorem itemsWithout_eq_map (items : List Json) :
    itemsWithout removed items = items.map (without removed) := by
  induction items with
  | nil => rfl
  | cons v items ih => rw [itemsWithout, ih, List.map_cons]

theorem exists_of_mem_membersWithout {members : List (Literal × Json)} {m : Literal × Json}
    (hm : m ∈ membersWithout removed members) : ∃ n ∈ members, m = (n.1, n.2.without removed) := by
  induction members with
  | nil => exact nomatch hm
  | cons n members ih =>
    obtain ⟨k, v⟩ := n
    rw [membersWithout] at hm
    split at hm
    · obtain ⟨n, hn, rfl⟩ := ih hm
      exact ⟨n, .tail _ hn, rfl⟩
    · rcases List.mem_cons.1 hm with rfl | hm
      · exact ⟨(k, v), List.mem_cons_self, rfl⟩
      · obtain ⟨n, hn, rfl⟩ := ih hm
        exact ⟨n, .tail _ hn, rfl⟩

/-- What can be written can be written without some of its members. -/
theorem Written.without {v : Json} (h : Written v) : (v.without removed).Written := by
  induction h with
  | null => exact .null
  | bool b => exact .bool b
  | number hn => exact .number hn
  | string hs => exact .string hs
  | @array items _ ih =>
    refine .array fun w hw => ?_
    rw [itemsWithout_eq_map] at hw
    obtain ⟨v, hv, rfl⟩ := List.mem_map.1 hw
    exact ih v hv
  | @object members hnames _ ih =>
    refine .object (fun m hm => ?_) (fun m hm => ?_)
    · obtain ⟨n, hn, rfl⟩ := exists_of_mem_membersWithout hm
      exact hnames n hn
    · obtain ⟨n, hn, rfl⟩ := exists_of_mem_membersWithout hm
      exact ih n hn

theorem membersWithout_nil {members : List (Literal × Json)}
    (h : ∀ m ∈ members, m.2.without [] = m.2) : membersWithout [] members = members := by
  induction members with
  | nil => rfl
  | cons m members ih =>
    obtain ⟨k, v⟩ := m
    have hv : v.without [] = v := h (k, v) List.mem_cons_self
    rw [membersWithout, ih fun m hm => h m (.tail _ hm), hv]
    rfl

theorem Written.without_nil {v : Json} (h : Written v) : v.without [] = v := by
  induction h with
  | @array items _ ih =>
    show Json.array (itemsWithout [] items) = _
    rw [itemsWithout_eq_map, List.map_congr_left ih, List.map_id']
  | @object members _ _ ih =>
    show Json.object (membersWithout [] members) = _
    rw [membersWithout_nil ih]
  | _ => rfl

/-- The members of a record but those of these names. -/
def kept (removed : List String) (members : List (String × Json)) : List (String × Json) :=
  (members.filter fun m => m.1 ∉ removed).map fun m => (m.1, m.2.without removed)

variable {members : List (String × Json)}

theorem without_record (h : ∀ m ∈ members, (Literal.plain m.1).Plain) :
    (record members).without removed = record (kept removed members) := by
  show object (membersWithout removed (members.map fun m => (.plain m.1, m.2))) = _
  congr 1
  induction members with
  | nil => rfl
  | cons m members ih =>
    obtain ⟨name, v⟩ := m
    have hmore := ih fun m hm => h m (.tail _ hm)
    have hname := (h (name, v) List.mem_cons_self).decode?_eq
    simp only [List.map_cons, membersWithout, hname, hmore, kept, Option.some.injEq,
      List.any_eq_true, decide_eq_true_eq, exists_eq_right']
    by_cases hremoved : name ∈ removed
    · simp [hremoved]
    · simp [hremoved]

theorem Members.kept (h : Members members) (removed : List String) :
    Members (kept removed members) := by
  have hnames : (Json.kept removed members).map Prod.fst =
      (members.filter fun m => m.1 ∉ removed).map Prod.fst := by
    simp [Json.kept]
  refine ⟨fun m hm => ?_, ?_⟩
  · obtain ⟨n, hn, rfl⟩ := List.mem_map.1 hm
    exact h.plain n (List.mem_of_mem_filter hn)
  · rw [hnames]
    exact h.nodup.sublist (List.filter_sublist.map Prod.fst)

/-- What is given to a field by the members but those of these names. -/
def given (removed : List String) (members : List (String × Json)) (name : String) : Option Json :=
  if name ∈ removed then none else (members.lookup name).map (without removed)

theorem lookup_cons_of_ne {name key : String} (h : name ≠ key) (v : Json) :
    ((key, v) :: members).lookup name = members.lookup name := by
  rw [List.lookup_cons, beq_false_of_ne h]

theorem lookup_kept (removed : List String) (members : List (String × Json)) (name : String) :
    (kept removed members).lookup name = given removed members name := by
  unfold given
  induction members with
  | nil => simp [kept]
  | cons m members ih =>
    obtain ⟨key, v⟩ := m
    by_cases hkey : key ∈ removed
    · have hdropped : kept removed ((key, v) :: members) = kept removed members := by
        simp [kept, hkey]
      rw [hdropped, ih]
      by_cases hname : name = key
      · simp [hname, hkey]
      · rw [lookup_cons_of_ne hname]
    · have hstays : kept removed ((key, v) :: members) =
          (key, v.without removed) :: kept removed members := by
        simp [kept, hkey]
      rw [hstays]
      by_cases hname : name = key
      · simp [hname, hkey]
      · rw [lookup_cons_of_ne hname, ih, lookup_cons_of_ne hname]

/-! ## Reading fields -/

theorem atMostOne_valuesOf (hnodup : (members.map Prod.fst).Nodup) (name : String) :
    atMostOne (valuesOf name members) = some (members.lookup name) := by
  induction members with
  | nil => rfl
  | cons m members ih =>
    obtain ⟨key, v⟩ := m
    obtain ⟨hkey, hmore⟩ := List.nodup_cons.1 hnodup
    by_cases hname : key = name
    · have hnone : valuesOf name members = [] := by
        rw [valuesOf, List.map_eq_nil_iff, List.filter_eq_nil_iff]
        intro m hm hm'
        exact hkey (List.mem_map.2 ⟨m, hm, (of_decide_eq_true hm').trans hname.symm⟩)
      have hvalues : valuesOf name ((key, v) :: members) = v :: valuesOf name members := by
        simp [valuesOf, hname]
      rw [hvalues, hnone, hname, List.lookup_cons_self]
      rfl
    · have hvalues : valuesOf name ((key, v) :: members) = valuesOf name members := by
        simp [valuesOf, hname]
      rw [hvalues, ih hmore, lookup_cons_of_ne (Ne.symm hname)]

theorem readNames_record (hplain : ∀ m ∈ members, (Literal.plain m.1).Plain) :
    readNames (members.map fun m => (.plain m.1, m.2)) = some members := by
  unfold readNames
  induction members with
  | nil => rfl
  | cons m members ih =>
    rw [List.map_cons, List.mapM_cons, ih fun m hm => hplain m (.tail _ hm),
      (hplain m List.mem_cons_self).decode?_eq]
    rfl

theorem fields?_record (h : Members members) (names : List String) :
    (record members).fields? names = some (names.map fun name => members.lookup name) := by
  have hvalues : (fun name => atMostOne (valuesOf name members)) =
      fun name => pure (members.lookup name) :=
    funext fun name => atMostOne_valuesOf h.nodup name
  rw [record, fields?, readNames_record h.plain]
  show names.mapM (fun name => atMostOne (valuesOf name members)) = _
  rw [hvalues, List.mapM_pure]
  rfl

/-- Of a record without some of its members the others are read. -/
theorem fields?_without (h : Members members) (names : List String) :
    ((record members).without removed).fields? names =
      some (names.map (given removed members)) := by
  rw [without_record h.plain, fields?_record (h.kept removed)]
  congr 1
  exact List.map_congr_left fun name _ => lookup_kept removed members name

/-- A field of such a record has its default if its member was removed. -/
theorem orDefault_without {α : Type} {read : Json → Option α} {v : Json} {x : α}
    (members : List (String × Json)) (name : String) (hlookup : members.lookup name = some v)
    (hread : read (v.without removed) = some x) (default : α) :
    orDefault read default (given removed members name) =
      some (if name ∈ removed then default else x) := by
  unfold given
  split
  · rfl
  · rw [hlookup]
    exact hread

theorem orDefault_size (members : List (String × Json)) (name : String) {n : Nat}
    (hlookup : members.lookup name = some (ofNat n)) (hn : n < wordBound) (default : Nat) :
    orDefault toSize? default (given removed members name) =
      some (if name ∈ removed then default else n) :=
  orDefault_without members name hlookup (Numeral.toNat?_ofNat hn) default

theorem orDefault_limit (members : List (String × Json)) (name : String) {n : UInt32}
    (hlookup : members.lookup name = some (ofNat n.toNat)) (default : UInt32) :
    orDefault toUInt32? default (given removed members name) =
      some (if name ∈ removed then default else n) := by
  refine orDefault_without members name hlookup ?_ default
  have hread : (ofNat n.toNat).toNat? UInt32.size = some n.toNat := Numeral.toNat?_ofNat n.toNat_lt
  show ((ofNat n.toNat).toNat? UInt32.size).map Nat.toUInt32 = some n
  rw [hread, Option.map_some, Nat.toUInt32, UInt32.ofNat_toNat]

/-! ## Kinds of fields -/

/-- The fields of a record in order, each with its name and the values that it takes. -/
abbrev Schema : Type := List (String × (Json → Prop))

/-- The value gives `w` to the field at a place of a record: in a member that has the name of the
field, or in the item at that place. -/
inductive Gives (place : Nat) (name : String) (w : Json) : Json → Prop
  | member {members : List (Literal × Json)} {key : Literal} (hmember : (key, w) ∈ members)
      (hkey : key.decode? = some name) : Gives place name w (.object members)
  | item {items : List Json} (hitem : items[place]? = some w) : Gives place name w (.array items)

/-- A value that a record can be read from as far as the kinds of its fields go. -/
structure WellTyped (schema : Schema) (v : Json) : Prop where
  record : (∃ items, v = .array items) ∨ ∃ members, v = .object members
  field : ∀ {place : Nat} {name : String} {takes : Json → Prop} {w : Json},
    schema[place]? = some (name, takes) → Gives place name w v → takes w

/-- A natural number below the bound, written as such. -/
def IsNat (bound : Nat) (v : Json) : Prop :=
  ∃ ds, v = .number { negative := false, whole := ds, fraction := none, exponent := none } ∧
    Numeral.ofDigits ds < bound

theorem isNat_ofNat {bound n : Nat} : IsNat bound (ofNat n) ↔ n < bound := by
  constructor
  · rintro ⟨ds, hds, hlt⟩
    obtain rfl : Numeral.digitsOf n = ds := congrArg Numeral.whole (Json.number.inj hds)
    rwa [Numeral.ofDigits_digitsOf] at hlt
  · exact fun hlt => ⟨Numeral.digitsOf n, rfl, by rwa [Numeral.ofDigits_digitsOf]⟩

/-- A number that is none too large to be read. -/
def IsFloat (v : Json) : Prop := ∃ n x, v = .number n ∧ n.toFloat? = some x

theorem isNat_of_toNat? {bound n : Nat} {v : Json} (h : v.toNat? bound = some n) :
    v.IsNat bound := by
  cases v with
  | number m =>
    obtain ⟨negative, whole, fraction, exponent⟩ := m
    rw [toNat?, Numeral.toNat?, Option.ite_none_right_eq_some] at h
    obtain ⟨⟨hnegative, hfraction, hexponent, hbound⟩, -⟩ := h
    dsimp only at hnegative hfraction hexponent
    subst hnegative hfraction hexponent
    exact ⟨whole, rfl, hbound⟩
  | _ => simp [toNat?] at h

theorem isFloat_of_toFloat? {x : Float} {v : Json} (h : v.toFloat? = some x) : v.IsFloat := by
  cases v with
  | number n => exact ⟨n, x, rfl, h⟩
  | _ => exact nomatch h

theorem getElem?_mapM {α β : Type} {f : α → Option β} {xs : List α} {ys : List β}
    (h : xs.mapM f = some ys) {i : Nat} {x : α} (hx : xs[i]? = some x) :
    ∃ y, f x = some y ∧ ys[i]? = some y := by
  induction xs generalizing ys i with
  | nil => exact nomatch hx
  | cons a xs ih =>
    rw [List.mapM_cons] at h
    obtain ⟨b, hb, h⟩ := Option.bind_eq_some_iff.1 h
    obtain ⟨bs, hbs, h⟩ := Option.bind_eq_some_iff.1 h
    obtain rfl := Option.some.inj h
    cases i with
    | zero =>
      obtain rfl := Option.some.inj hx
      exact ⟨b, hb, rfl⟩
    | succ i => exact ih hbs hx

theorem eq_singleton_of_atMostOne {vs : List Json} {f : Option Json} {w : Json}
    (h : atMostOne vs = some f) (hw : w ∈ vs) : f = some w := by
  match vs, h with
  | [], _ => exact nomatch hw
  | [v], h => rw [List.mem_singleton.1 hw, ← Option.some.inj h]

/-- A field that is given is read as it is given. -/
theorem Gives.getElem?_eq {names : List String} {v w : Json} {fs : List (Option Json)}
    {place : Nat} {name : String} (hgives : Gives place name w v) (h : v.fields? names = some fs)
    (hname : names[place]? = some name) : fs[place]? = some (some w) := by
  cases hgives with
  | @member members key hmember hkey =>
    obtain ⟨named, hnamed, hfs⟩ := Option.bind_eq_some_iff.1 h
    obtain ⟨i, hi⟩ := List.mem_iff_getElem?.1 hmember
    obtain ⟨pair, hpair, hi⟩ := getElem?_mapM hnamed hi
    obtain rfl : (name, w) = pair := by
      rw [hkey] at hpair
      exact Option.some.inj hpair
    have hw : w ∈ valuesOf name named := List.mem_map.2 ⟨(name, w),
      List.mem_filter.2 ⟨List.mem_of_getElem? hi, decide_eq_true rfl⟩, rfl⟩
    -- no other member has that name, or nothing would have been read
    obtain ⟨f, hf, hplace⟩ := getElem?_mapM hfs hname
    rw [hplace, eq_singleton_of_atMostOne hf hw]
  | @item items hitem =>
    obtain ⟨hlt, -⟩ := List.getElem?_eq_some_iff.1 hname
    rw [fields?] at h
    split at h
    · obtain rfl := Option.some.inj h
      rw [List.getElem?_map, List.getElem?_range hlt, Option.map_some, hitem]
    · exact nomatch h

theorem record_of_fields? {names : List String} {v : Json} {fs : List (Option Json)}
    (h : v.fields? names = some fs) :
    (∃ items, v = .array items) ∨ ∃ members, v = .object members := by
  cases v with
  | array items => exact .inl ⟨items, rfl⟩
  | object members => exact .inr ⟨members, rfl⟩
  | _ => exact nomatch h

/-- A record is well typed if each of its fields that is given takes what is given. -/
theorem wellTyped_of_fields? {schema : Schema} {v : Json} {fs : List (Option Json)}
    (h : v.fields? (schema.map Prod.fst) = some fs)
    (hfields : List.Forall₂ (fun field f => ∀ w ∈ f, field.2 w) schema fs) :
    WellTyped schema v := by
  refine ⟨record_of_fields? h, fun {place name takes w} hfield hgives => ?_⟩
  have hgiven : fs[place]? = some (some w) :=
    hgives.getElem?_eq h (by rw [List.getElem?_map, hfield]; rfl)
  obtain ⟨hschema, hfield⟩ := List.getElem?_eq_some_iff.1 hfield
  obtain ⟨hfs, hgiven⟩ := List.getElem?_eq_some_iff.1 hgiven
  have htakes := hfields.get hschema hfs
  rw [List.get_eq_getElem, List.get_eq_getElem, hfield, hgiven] at htakes
  exact htakes w rfl

/-- A field that is read takes what is given to it, if the reader accepts nothing else. -/
theorem takes_of_orDefault {α : Type} {read : Json → Option α} {takes : Json → Prop}
    (hread : ∀ {v : Json} {x : α}, read v = some x → takes v) {default x : α} {f : Option Json}
    (h : orDefault read default f = some x) : ∀ w ∈ f, takes w := by
  intro w hw
  obtain rfl := Option.mem_def.1 hw
  exact hread h

theorem isNat_of_size {default n : Nat} {f : Option Json}
    (h : orDefault toSize? default f = some n) : ∀ w ∈ f, IsNat wordBound w :=
  takes_of_orDefault isNat_of_toNat? h

theorem isNat_of_limit {default n : UInt32} {f : Option Json}
    (h : orDefault toUInt32? default f = some n) : ∀ w ∈ f, IsNat UInt32.size w := by
  refine takes_of_orDefault (fun hread => ?_) h
  obtain ⟨k, hk, -⟩ := Option.map_eq_some_iff.1 hread
  exact isNat_of_toNat? hk

end BlockFlow.Json
