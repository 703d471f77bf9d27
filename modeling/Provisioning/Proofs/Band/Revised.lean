import Provisioning.Proofs.Band.Entry
import Provisioning.Proofs.Assembly
import Provisioning.Revision

namespace Provisioning

namespace Band

/-- The band as the last entry that names it asks for. -/
def revised (s : Store) (es : List Request.BandEntry) (b : Band) : Band :=
  match b.id with
  | none => b
  | some i =>
    ((es.reverse.find? fun e ↦ e.id.value? == some i).map (Request.BandEntry.band s)).getD b

end Band

theorem checkBands_of_alike {as bs : List Band} (h : List.Forall₂ Band.Alike as bs)
    (has : checkBands as = .ok ()) : checkBands bs = .ok () := by
  rw [checkBands_eq_ok_iff] at has ⊢
  refine pairwise_of_forall₂ (fun a b a' b' hab hab' haa' ↦ ?_) h has
  rw [hab.isVersionOf_eq hab', hab.overlaps_eq hab']
  exact haa'

theorem forall₂_alike_symm {as bs : List Band} (h : List.Forall₂ Band.Alike as bs) :
    List.Forall₂ Band.Alike bs as := h.flip.imp fun _ _ hab ↦ hab.symm

theorem forall₂_alike_trans {as bs cs : List Band} (h : List.Forall₂ Band.Alike as bs)
    (h' : List.Forall₂ Band.Alike bs cs) : List.Forall₂ Band.Alike as cs :=
  forall₂_comp (fun _ _ _ hab hbc ↦ hab.trans hbc) h h'

/-- The stored bands as the entries say, and then those that name no band. -/
def revisedBands (s : Store) (es : List Request.BandEntry) (bs : List Band) : List Band :=
  bs.map (Band.revised s es) ++
    (es.filter fun e ↦ e.id.value?.isNone).map (Request.BandEntry.band s)

def appliedBands (s : Store) (e : Request.BandEntry) (bs : List Band) : List Band :=
  match e.id.value? with
  | none => bs ++ [e.band s]
  | some i => bs.map fun b ↦ if b.id = some i then e.band s else b

/-- The entry stands for a band, which is a new one or one of these. -/
def Request.BandEntry.Applicable (s : Store) (own : List Int) (e : BandEntry) : Prop :=
  e.Acceptable s ∧ ∀ i, e.id.value? = some i → i ∈ own

/-- The entry asks for a new band, or for one of these with other values. -/
def Request.BandEntry.Alters (s : Store) (bs : List Band) (e : BandEntry) : Prop :=
  ∀ i, e.id.value? = some i → ∃ b ∈ bs, b.id = some i ∧ ¬ (e.band s).Alike b

/-- No band is named by two of the entries. -/
def Request.DistinctIds (es : List BandEntry) : Prop :=
  es.Pairwise fun e e' ↦ e.id.value? ≠ none → e.id.value? ≠ e'.id.value?

section Revised

variable {s : Store} {e : Request.BandEntry} {es : List Request.BandEntry} {b : Band}
  {bs : List Band}

theorem revised_of_id_eq_none (h : b.id = none) : b.revised s es = b := by
  rw [Band.revised, h]

theorem id_revised : (b.revised s es).id = b.id := by
  cases hb : b.id with
  | none => rw [revised_of_id_eq_none hb, hb]
  | some i =>
    simp only [Band.revised, hb]
    cases hfind : es.reverse.find? fun e ↦ e.id.value? == some i with
    | none => exact hb
    | some e =>
      have hid := List.find?_some hfind
      exact beq_iff_eq.1 hid

theorem revised_cons_of_eq {i : Int} (he : e.id.value? = some i) (hb : b.id = some i) :
    b.revised s (e :: es) = (e.band s).revised s es := by
  have hid : (e.band s).id = some i := he
  have hnames : (e.id.value? == some i) = true := beq_iff_eq.2 he
  simp only [Band.revised, hb, hid, List.reverse_cons, List.find?_append]
  cases es.reverse.find? fun e ↦ e.id.value? == some i with
  | none =>
    rw [Option.none_or, List.find?_singleton, if_pos hnames]
    rfl
  | some e' => rfl

theorem revised_cons_of_ne (h : e.id.value? ≠ b.id) :
    b.revised s (e :: es) = b.revised s es := by
  cases hb : b.id with
  | none => rw [revised_of_id_eq_none hb, revised_of_id_eq_none hb]
  | some i =>
    have hnames : ¬ (e.id.value? == some i) = true := fun he ↦ h ((beq_iff_eq.1 he).trans hb.symm)
    simp only [Band.revised, hb, List.reverse_cons, List.find?_append]
    rw [List.find?_singleton, if_neg hnames, Option.or_none]

theorem not_alters_iff {i : Int} (hid : e.id.value? = some i) :
    ¬ e.Alters s bs ↔ ∀ b ∈ bs, b.id = some i → (e.band s).Alike b := by
  constructor
  · intro h b hb hbi
    by_contra hnot
    exact h fun j hj ↦ ⟨b, hb, hbi.trans (hid.symm.trans hj), hnot⟩
  · intro h halters
    obtain ⟨b, hb, hbi, hnot⟩ := halters i hid
    exact hnot (h b hb hbi)

theorem revised_of_forall_ne {i : Int} (hb : b.id = some i) (h : ∀ e ∈ es, e.id.value? ≠ some i) :
    b.revised s es = b := by
  have hnone : (es.reverse.find? fun e ↦ e.id.value? == some i) = none :=
    List.find?_eq_none.2 fun e he hid ↦ h e (List.mem_reverse.1 he) (beq_iff_eq.1 hid)
  simp only [Band.revised, hb, hnone, Option.map_none, Option.getD_none]

theorem revisedBands_nil : revisedBands s [] bs = bs := by
  have hself : bs.map (Band.revised s []) = bs.map fun b ↦ b := by
    apply List.map_congr_left
    intro b _
    cases hb : b.id with
    | none => exact revised_of_id_eq_none hb
    | some i => exact revised_of_forall_ne hb fun e he ↦ absurd he List.not_mem_nil
  rw [revisedBands, hself, List.map_id', List.filter_nil, List.map_nil, List.append_nil]

theorem revisedBands_cons :
    revisedBands s (e :: es) bs = revisedBands s es (appliedBands s e bs) := by
  simp only [revisedBands, appliedBands]
  cases he : e.id.value? with
  | none =>
    have hnew : (e.band s).revised s es = e.band s := revised_of_id_eq_none he
    have hbs : bs.map (Band.revised s (e :: es)) = bs.map (Band.revised s es) := by
      apply List.map_congr_left
      intro b _
      cases hb : b.id with
      | none => rw [revised_of_id_eq_none hb, revised_of_id_eq_none hb]
      | some i => exact revised_cons_of_ne (by rw [he, hb]; exact nofun)
    rw [List.filter_cons, he, if_pos Option.isNone_none, List.map_cons, hbs, List.map_append, List.map_cons, hnew,
      List.map_nil, List.append_assoc, List.singleton_append]
  | some i =>
    have hbs : bs.map (Band.revised s (e :: es)) =
        (bs.map fun b ↦ if b.id = some i then e.band s else b).map (Band.revised s es) := by
      rw [List.map_map]
      apply List.map_congr_left
      intro b _
      rw [Function.comp_apply]
      split
      · exact revised_cons_of_eq he ‹_›
      · exact revised_cons_of_ne fun h ↦ absurd (h.symm.trans he) ‹_›
    rw [List.filter_cons, he, Option.isNone_some, if_neg Bool.false_ne_true, hbs]

theorem map_id_appliedBands (s : Store) (e : Request.BandEntry) (bs : List Band) :
    ∃ n, (appliedBands s e bs).map Band.id = bs.map Band.id ++ List.replicate n none := by
  rw [appliedBands]
  cases he : e.id.value? with
  | none =>
    refine ⟨1, ?_⟩
    rw [List.map_append, List.map_singleton]
    exact congrArg (fun i ↦ bs.map Band.id ++ [i]) he
  | some i =>
    refine ⟨0, ?_⟩
    rw [List.replicate_zero, List.append_nil, List.map_map]
    apply List.map_congr_left
    intro b _
    rw [Function.comp_apply]
    split
    · exact Eq.trans he (Eq.symm ‹_›)
    · rfl

theorem bandIds_eq_of_map_id {bs bs' : List Band} {n : ℕ}
    (h : bs'.map Band.id = bs.map Band.id ++ List.replicate n none) : bandIds bs' = bandIds bs := by
  have hids := congrArg (List.filterMap id) h
  rw [List.filterMap_map, List.filterMap_append, List.filterMap_map] at hids
  simpa [bandIds] using hids

theorem map_id_revisedBands (s : Store) (es : List Request.BandEntry) (bs : List Band) :
    ∃ n, (revisedBands s es bs).map Band.id = bs.map Band.id ++ List.replicate n none := by
  refine ⟨(es.filter fun e ↦ e.id.value?.isNone).length, ?_⟩
  rw [revisedBands, List.map_append, List.map_map, List.map_map]
  congr 1
  · exact List.map_congr_left fun b _ ↦ id_revised
  · refine List.eq_replicate_iff.2 ⟨List.length_map _, fun i hi ↦ ?_⟩
    obtain ⟨e, he, rfl⟩ := List.mem_map.1 hi
    exact Option.isNone_iff_eq_none.1 (List.mem_filter.1 he).2

theorem Band.Alike.revised {b' : Band} (h : b.Alike b') : (b.revised s es).Alike (b'.revised s es) := by
  cases hb : b.id with
  | none =>
    rw [revised_of_id_eq_none hb, revised_of_id_eq_none (h.id_eq.symm.trans hb)]
    exact h
  | some i =>
    have hb' : b'.id = some i := h.id_eq.symm.trans hb
    simp only [Band.revised, hb, hb']
    cases es.reverse.find? fun e ↦ e.id.value? == some i with
    | none => exact h
    | some e => exact .refl _

theorem forall₂_revisedBands {bs' : List Band} (h : List.Forall₂ Band.Alike bs bs') :
    List.Forall₂ Band.Alike (revisedBands s es bs) (revisedBands s es bs') := by
  refine List.rel_append ?_ (List.forall₂_same.2 fun b _ ↦ .refl b)
  exact List.rel_map (fun b b' hb ↦ hb.revised) h

theorem appliedBands_append {front back : List Band} {old : Band}
    (hids : (bandIds (front ++ old :: back)).Nodup) (hold : old.id = e.id.value?)
    (hsome : e.id.value? ≠ none) : appliedBands s e (front ++ old :: back) = front ++ e.band s :: back := by
  obtain ⟨i, hi⟩ := Option.ne_none_iff_exists'.1 hsome
  have hother := forall_id_ne_of_nodup hids (hold.trans hi)
  have hkept {as : List Band} (has : ∀ a ∈ as, a.id ≠ some i) :
      as.map (fun a ↦ if a.id = some i then e.band s else a) = as := by
    rw [List.map_congr_left fun a ha ↦ if_neg (has a ha), List.map_id']
  have hfront := hkept fun a ha ↦ hother a (List.mem_append_left back ha)
  have hback := hkept fun a ha ↦ hother a (List.mem_append_right front ha)
  simp only [appliedBands, hi, List.map_append, List.map_cons, hfront, hback, hold, if_true]

variable {c c' : Criteria} {changed : Bool} {k : Category} {l x : Account}

theorem describes_request_iff (hk : s.category e.categoryId = .ok k) (hl : s.account e.liability = .ok l)
    (hx : s.account e.expense = .ok x) : e.request.Describes k l x b ↔ e.Acceptable s ∧ b = e.band s :=
  Request.BandEntry.describes_iff hk hl hx

theorem apply_eq_ok (hids : (bandIds c.bands).Nodup) (hk : s.category e.categoryId = .ok k)
    (hl : s.account e.liability = .ok l) (hx : s.account e.expense = .ok x)
    (h : c.apply e.request k l x false = .ok (c', changed)) :
    e.Applicable s (bandIds c.bands) ∧
      ((changed = true ∧ e.Alters s c.bands ∧ c' = { c with bands := appliedBands s e c.bands }) ∨
        changed = false ∧ ¬ e.Alters s c.bands ∧ c' = c ∧
          List.Forall₂ Band.Alike (appliedBands s e c.bands) c.bands) := by
  obtain ⟨b, hb, -, htakes⟩ := (Criteria.apply_eq_ok_iff hids).1 h
  obtain ⟨hacc, rfl⟩ := (describes_request_iff hk hl hx).1 hb
  cases htakes with
  | appended hnone =>
    have hnone : e.id.value? = none := hnone
    have hnever (i : Int) : e.id.value? ≠ some i := by simp [hnone]
    refine ⟨⟨hacc, fun i hi ↦ absurd hi (hnever i)⟩, .inl ⟨rfl, fun i hi ↦ absurd hi (hnever i), ?_⟩⟩
    rw [appliedBands, hnone]
  | @replaced front back old hbands hold hsome hnew =>
    have hmem : old ∈ c.bands := by simp [hbands]
    refine ⟨⟨hacc, fun i hi ↦ mem_bandIds_iff.2 ⟨old, hmem, hold.trans hi⟩⟩, .inl ⟨rfl, ?_, ?_⟩⟩
    · exact fun i hi ↦ ⟨old, hmem, hold.trans hi, hnew⟩
    · rw [hbands] at hids ⊢
      rw [appliedBands_append hids hold hsome]
  | @kept old hmem hsome hsame =>
    have hold : old.id = e.id.value? := hsame.id_eq.symm
    obtain ⟨i, hi⟩ := Option.ne_none_iff_exists'.1 hsome
    refine ⟨⟨hacc, fun i hi ↦ mem_bandIds_iff.2 ⟨old, hmem, hold.trans hi⟩⟩, .inr ⟨rfl, ?_, rfl, ?_⟩⟩
    · refine (not_alters_iff hi).2 fun a ha hai ↦ ?_
      rw [eq_of_id_eq hids ha hmem hai (hold.trans hi)]
      exact hsame
    · obtain ⟨front, back, hbands⟩ := List.append_of_mem hmem
      rw [hbands] at hids ⊢
      rw [appliedBands_append hids hold hsome]
      exact List.rel_append (List.forall₂_same.2 fun a _ ↦ .refl a)
        (.cons hsame (List.forall₂_same.2 fun a _ ↦ .refl a))

theorem exists_apply_eq_ok (hids : (bandIds c.bands).Nodup) (hk : s.category e.categoryId = .ok k)
    (hl : s.account e.liability = .ok l) (hx : s.account e.expense = .ok x)
    (h : e.Applicable s (bandIds c.bands)) :
    ∃ c' changed, c.apply e.request k l x false = .ok (c', changed) := by
  obtain ⟨c', changed, htakes⟩ := Criteria.exists_takes (b := e.band s) h.2
  have hb := (describes_request_iff hk hl hx).2 ⟨h.1, rfl⟩
  exact ⟨c', changed, (Criteria.apply_eq_ok_iff hids).2 ⟨_, hb, nofun, htakes⟩⟩

theorem applyEntry_eq_ok (hids : (bandIds c.bands).Nodup)
    (h : c.applyEntry s.directory e.request = .ok (c', changed)) :
    e.Applicable s (bandIds c.bands) ∧
      ((changed = true ∧ e.Alters s c.bands ∧ c' = { c with bands := appliedBands s e c.bands }) ∨
        changed = false ∧ ¬ e.Alters s c.bands ∧ c' = c ∧
          List.Forall₂ Band.Alike (appliedBands s e c.bands) c.bands) := by
  simp only [Criteria.applyEntry, bind_eq_ok_iff, mapError_eq_ok_iff] at h
  obtain ⟨k, hk, l, hl, x, hx, h⟩ := h
  exact apply_eq_ok hids hk hl hx h

theorem exists_applyEntry_eq_ok (hids : (bandIds c.bands).Nodup) (h : e.Applicable s (bandIds c.bands)) :
    ∃ c' changed, c.applyEntry s.directory e.request = .ok (c', changed) := by
  obtain ⟨k, hk⟩ := h.1.category
  obtain ⟨l, hl, -⟩ := h.1.liability
  obtain ⟨x, hx, -⟩ := h.1.expense
  obtain ⟨c', changed, hc'⟩ := exists_apply_eq_ok hids hk hl hx h
  refine ⟨c', changed, ?_⟩
  simp only [Criteria.applyEntry, bind_eq_ok_iff, mapError_eq_ok_iff]
  exact ⟨k, hk, l, hl, x, hx, hc'⟩

theorem bandIds_of_applyEntry (hids : (bandIds c.bands).Nodup)
    (h : c.applyEntry s.directory e.request = .ok (c', changed)) :
    bandIds c'.bands = bandIds c.bands := by
  obtain ⟨-, ⟨-, -, rfl⟩ | ⟨-, -, rfl, -⟩⟩ := applyEntry_eq_ok hids h
  · obtain ⟨n, hn⟩ := map_id_appliedBands s e c.bands
    exact bandIds_eq_of_map_id hn
  · rfl

theorem alike_of_applyEntry (hids : (bandIds c.bands).Nodup)
    (h : c.applyEntry s.directory e.request = .ok (c', changed)) :
    List.Forall₂ Band.Alike (appliedBands s e c.bands) c'.bands := by
  obtain ⟨-, ⟨-, -, rfl⟩ | ⟨-, -, rfl, hall⟩⟩ := applyEntry_eq_ok hids h
  · exact List.forall₂_same.2 fun b _ ↦ .refl b
  · exact hall

variable {written : List (Option Int)}

theorem exists_applyAll_eq_ok (hids : (bandIds c.bands).Nodup)
    (h : ∀ e ∈ es, e.Applicable s (bandIds c.bands)) :
    ∃ c' written, c.applyAll s.directory (es.map Request.BandEntry.request) = .ok (c', written) := by
  induction es generalizing c with
  | nil => exact ⟨c, [], rfl⟩
  | cons e es ih =>
    rw [List.forall_mem_cons] at h
    obtain ⟨c₁, changed, hc₁⟩ := exists_applyEntry_eq_ok hids h.1
    have hsame := bandIds_of_applyEntry hids hc₁
    obtain ⟨c', written, hc'⟩ := ih (hsame ▸ hids) (hsame ▸ h.2)
    simp only [List.map_cons, Criteria.applyAll, bind_eq_ok_iff]
    exact ⟨_, _, _, hc₁, _, hc', rfl⟩

theorem applyAll_eq_ok (hids : (bandIds c.bands).Nodup)
    (h : c.applyAll s.directory (es.map Request.BandEntry.request) = .ok (c', written)) :
    (∀ e ∈ es, e.Applicable s (bandIds c.bands)) ∧ c' = { c with bands := c'.bands } ∧
      List.Forall₂ Band.Alike (revisedBands s es c.bands) c'.bands ∧ (written = [] → c' = c) := by
  -- no entry changes which ids there are, so that each is checked against the same ones
  induction es generalizing c written with
  | nil =>
    obtain ⟨rfl, rfl⟩ := Prod.mk.inj (Except.ok.inj h)
    refine ⟨fun e he ↦ absurd he List.not_mem_nil, rfl, ?_, fun _ ↦ rfl⟩
    rw [revisedBands_nil]
    exact List.forall₂_same.2 fun b _ ↦ .refl b
  | cons e es ih =>
    simp only [List.map_cons, Criteria.applyAll, bind_eq_ok_iff] at h
    obtain ⟨⟨c₁, changed⟩, hc₁, ⟨c₂, rest⟩, hc₂, hlast⟩ := h
    obtain ⟨rfl, rfl⟩ := Prod.mk.inj (Except.ok.inj hlast)
    have hsame := bandIds_of_applyEntry hids hc₁
    obtain ⟨hes, hframe, hbands, hnone⟩ := ih (hsame ▸ hids) hc₂
    rw [hsame] at hes
    obtain ⟨he, hstep⟩ := applyEntry_eq_ok hids hc₁
    refine ⟨List.forall_mem_cons.2 ⟨he, hes⟩, ?_, ?_, ?_⟩
    · rcases hstep with ⟨-, -, rfl⟩ | ⟨-, -, rfl, -⟩ <;> exact hframe
    · rw [revisedBands_cons]
      exact forall₂_alike_trans (forall₂_revisedBands (alike_of_applyEntry hids hc₁)) hbands
    · intro hwritten
      rcases hstep with ⟨rfl, -⟩ | ⟨rfl, -, rfl, -⟩
      · cases hwritten
      · exact hnone hwritten

theorem applyAll_written_eq_nil_iff (hids : (bandIds c.bands).Nodup)
    (h : c.applyAll s.directory (es.map Request.BandEntry.request) = .ok (c', written)) :
    written = [] ↔ ∀ e ∈ es, ¬ e.Alters s c.bands := by
  -- the first entry that asks for a change finds the bands as they were
  induction es generalizing c written with
  | nil =>
    obtain ⟨rfl, rfl⟩ := Prod.mk.inj (Except.ok.inj h)
    simp
  | cons e es ih =>
    simp only [List.map_cons, Criteria.applyAll, bind_eq_ok_iff] at h
    obtain ⟨⟨c₁, changed⟩, hc₁, ⟨c₂, rest⟩, hc₂, hlast⟩ := h
    obtain ⟨rfl, rfl⟩ := Prod.mk.inj (Except.ok.inj hlast)
    obtain ⟨-, ⟨rfl, halters, -⟩ | ⟨rfl, halters, rfl, -⟩⟩ := applyEntry_eq_ok hids hc₁
    · simp [halters]
    · simp [halters, ih hids hc₂]

theorem alters_appliedBands_iff {e' : Request.BandEntry}
    (h : e'.id.value? ≠ none → e'.id.value? ≠ e.id.value?) :
    e'.Alters s (appliedBands s e bs) ↔ e'.Alters s bs := by
  refine forall₂_congr fun i hi ↦ ?_
  have hne : some i ≠ e.id.value? := hi ▸ h (by rw [hi]; exact nofun)
  rw [appliedBands]
  cases he : e.id.value? with
  | none =>
    have hid : (e.band s).id = none := he
    simp [hid, or_and_right, exists_or]
  | some j =>
    have hid : (e.band s).id = some j := he
    have hij : i ≠ j := fun hij ↦ hne (by rw [he, hij])
    simp only [List.mem_map, exists_exists_and_eq_and]
    refine exists_congr fun b ↦ and_congr_right fun _ ↦ ?_
    split
    · rename_i hb
      simp [hid, hb, hij.symm]
    · rfl

/-- Of entries that name no band twice, those that ask for a change are reported, in their order. -/
theorem applyAll_written_eq (hids : (bandIds c.bands).Nodup)
    (hdistinct : Request.DistinctIds es) {p : Option Int → Bool}
    (hp : ∀ e ∈ es, p e.id.value? = true ↔ e.Alters s c.bands)
    (h : c.applyAll s.directory (es.map Request.BandEntry.request) = .ok (c', written)) :
    written = (es.map fun e ↦ e.id.value?).filter p := by
  induction es generalizing c written with
  | nil =>
    obtain ⟨rfl, rfl⟩ := Prod.mk.inj (Except.ok.inj h)
    rfl
  | cons e es ih =>
    simp only [List.map_cons, Criteria.applyAll, bind_eq_ok_iff] at h
    obtain ⟨⟨c₁, changed⟩, hc₁, ⟨c₂, rest⟩, hc₂, hlast⟩ := h
    obtain ⟨rfl, rfl⟩ := Prod.mk.inj (Except.ok.inj hlast)
    rw [List.forall_mem_cons] at hp
    have hsame := bandIds_of_applyEntry hids hc₁
    obtain ⟨hothers, hrest⟩ := List.pairwise_cons.1 hdistinct
    have hp' : ∀ e' ∈ es, p e'.id.value? = true ↔ e'.Alters s c₁.bands := by
      intro e' he'
      rw [hp.2 e' he']
      obtain ⟨-, ⟨-, -, rfl⟩ | ⟨-, -, rfl, -⟩⟩ := applyEntry_eq_ok hids hc₁
      · refine (alters_appliedBands_iff fun hne heq ↦ ?_).symm
        exact hothers e' he' (heq ▸ hne) heq.symm
      · rfl
    have hwritten := ih (hsame ▸ hids) hrest hp' hc₂
    have hid : e.request.id = e.id.value? := rfl
    rw [List.map_cons, List.filter_cons, hwritten, hid]
    obtain ⟨-, ⟨rfl, halters, -⟩ | ⟨rfl, halters, -⟩⟩ := applyEntry_eq_ok hids hc₁
    · rw [if_pos rfl, if_pos (hp.1.2 halters)]
    · rw [if_neg Bool.false_ne_true, if_neg (mt hp.1.1 halters)]

end Revised
end Provisioning
