import Provisioning.Proofs.Band.Build
import Provisioning.Proofs.Band.Check
import Mathlib.Data.List.Nodup

namespace Provisioning

variable {α β : Type}

theorem mapError_eq_ok_iff {ε ε' : Type} {f : ε → ε'} {x : Except ε α} {a : α} :
    x.mapError f = .ok a ↔ x = .ok a := by
  cases x <;> simp [Except.mapError]

theorem map_eq_ok_iff {ε : Type} {f : α → β} {x : Except ε α} {b : β} :
    x.map f = .ok b ↔ ∃ a, x = .ok a ∧ f a = b := by
  cases x <;> simp [Except.map]

theorem isOk_eq_true_iff {ε : Type} {x : Except ε α} : x.isOk = true ↔ ∃ a, x = .ok a := by
  cases x <;> simp [Except.isOk, Except.toBool]

namespace Traced

variable {e : Failure} {a : α} {qs : List Lookup}

theorem answer_bind (x : Traced α) (f : α → Traced β) :
    (x >>= f).answer = x.answer >>= fun a ↦ (f a).answer := by
  change (Traced.bind x f).answer = _
  rw [Traced.bind]
  cases x.answer <;> rfl

theorem answer_pure (a : α) : (pure a : Traced α).answer = .ok a := rfl

theorem mk_ok_bind (f : α → Traced β) :
    (⟨qs, .ok a⟩ : Traced α) >>= f = ⟨qs ++ (f a).lookups, (f a).answer⟩ := rfl

theorem mk_error_bind (f : α → Traced β) : (⟨qs, .error e⟩ : Traced α) >>= f = ⟨qs, .error e⟩ := rfl

theorem lookups_pure (a : α) : (pure a : Traced α).lookups = [] := rfl

theorem check_ok_bind (f : α → Traced β) : check (.ok a) >>= f = f a := rfl

theorem answer_check_eq_ok_iff {x : Except Problem α} {a : α} :
    (check x).answer = .ok a ↔ x = .ok a := mapError_eq_ok_iff

end Traced

theorem nodup_eraseDups [BEq α] [LawfulBEq α] (xs : List α) : xs.eraseDups.Nodup := by
  match xs with
  | [] => exact List.nodup_nil
  | x :: xs =>
    rw [List.eraseDups_cons, List.nodup_cons]
    exact ⟨by simp [List.mem_eraseDups], nodup_eraseDups _⟩
termination_by xs.length
decreasing_by exact Nat.lt_succ_of_le (List.length_filter_le _ _)

def NotBlank (name : String) : Prop := ∃ c ∈ name.toList, Text.isBlank c = false

def ProperName (name : String) : Prop := NotBlank name ∧ name.length ≤ maxNameLength

theorem checkName_eq_ok_iff {name n : String} :
    checkName (.str name) = .ok n ↔ ProperName name ∧ n = name := by
  have hblank : name.toList.all Text.isBlank = true ↔ ¬ NotBlank name := by simp [NotBlank]
  rw [checkName]
  split
  · rename_i hb
    exact iff_of_false nofun fun h ↦ hblank.1 hb h.1.1
  · rename_i hb
    have hex := not_not.1 (mt hblank.2 hb)
    split
    · rename_i hl
      exact iff_of_false nofun fun h ↦ not_lt_of_ge h.1.2 hl
    · rename_i hl
      rw [Except.ok.injEq, eq_comm]
      exact (and_iff_right ⟨hex, not_lt.1 hl⟩).symm

namespace Criteria

theorem distinctProducts_eq_self {ps : List Product} (h : (ps.map Product.id).Nodup) :
    distinctProducts ps = ps := by
  induction ps with
  | nil => rfl
  | cons p ps ih =>
    rw [List.map_cons, List.nodup_cons] at h
    rw [distinctProducts, ih h.2, List.filter_eq_self.2]
    intro q hq
    have hne : q.id ≠ p.id := fun he ↦ h.1 (he ▸ List.mem_map_of_mem hq)
    simpa using hne

theorem create_eq_ok_iff {name : String} {bs : List Band} {ps : List Product} {c : Criteria}
    (hps : (ps.map Product.id).Nodup) :
    create (.str name) bs ps = .ok c ↔
      (ProperName name ∧ bs ≠ []) ∧ c = ⟨none, name, bs, ps⟩ := by
  rw [create, distinctProducts_eq_self hps]
  cases bs with
  | nil => exact iff_of_false nofun fun h ↦ h.1.2 rfl
  | cons b bs =>
    rw [List.isEmpty_cons, if_neg Bool.false_ne_true, map_eq_ok_iff]
    simp only [checkName_eq_ok_iff]
    constructor
    · intro h
      obtain ⟨_, ⟨hname, rfl⟩, rfl⟩ := h
      exact ⟨⟨hname, List.cons_ne_nil _ _⟩, rfl⟩
    · intro h
      obtain ⟨⟨hname, -⟩, rfl⟩ := h
      exact ⟨name, ⟨hname, rfl⟩, rfl⟩

end Criteria

section Entry

variable {e : Request.BandEntry} {k : Category} {l x : Account} {b : Band}

def Request.BandEntry.lookups (e : BandEntry) : List Lookup :=
  [.category e.categoryId, .account e.liability, .account e.expense]

def Request.BandEntry.HasValues (e : BandEntry) : Prop :=
  (0 ≤ e.minAge ∧ e.minAge < e.maxAge) ∧ e.percentage.IsPercentage

theorem BandRequest.Describes.hasValues (h : e.newRequest.Describes k l x b) : e.HasValues := by
  have hmin : e.minAge = b.minAge := Value.int.inj h.minAge.1
  have hmax : e.maxAge = b.maxAge := Value.int.inj h.maxAge.1
  have hp : e.percentage = b.percentage := h.percentage.1.1
  have hlow := h.minAge.2
  have hlt := h.maxAge.2
  exact ⟨by omega, hp ▸ h.percentage.2⟩

theorem Request.BandEntry.HasValues.exists_describes (h : e.HasValues) (k : Category)
    (hl : l.kind = .liability) (hx : x.kind = .expense) : ∃ b, e.newRequest.Describes k l x b := by
  obtain ⟨⟨hlow, hlt⟩, hp⟩ := h
  exact ⟨⟨none, k.id, k.name, e.minAge, e.maxAge, e.percentage, l.copy, x.copy⟩, rfl, ⟨rfl, rfl⟩, ⟨rfl, hlow⟩,
    ⟨rfl, hlt⟩, ⟨⟨rfl, hp.isFinite⟩, hp⟩, ⟨rfl, hl⟩, rfl, hx⟩

end Entry

namespace Directory

variable {d : Directory} {r : BandRequest} {e : Request.BandEntry} {k : Category} {l x : Account} {b : Band}
  {bs : List Band} {qs : List Lookup}

theorem validate_eq_ok_iff :
    (d.validate r bs).answer = .ok b ↔
      ∃ k l x, d.category r.categoryId = .ok k ∧ d.account r.liability = .ok l ∧
        d.account r.expense = .ok x ∧ r.Describes k l x b ∧ b.checkNoOverlap bs = .ok () := by
  simp only [validate, Traced.answer_bind, bind_eq_ok_iff, Traced.answer_check_eq_ok_iff,
    BandRequest.build_eq_ok_iff]
  constructor
  · intro h
    obtain ⟨-, -, -, -, k, hk, l, hl, x, hx, hb, hfree⟩ := h
    exact ⟨k, l, x, hk, hl, hx, hb, hfree⟩
  · intro h
    obtain ⟨k, l, x, hk, hl, hx, hb, hfree⟩ := h
    exact ⟨⟨b.minAge, b.maxAge⟩, checkAges_eq_ok_iff.2 ⟨hb.minAge, hb.maxAge⟩, b.percentage,
      checkPercentage_eq_ok_iff.2 hb.percentage, k, hk, l, hl, x, hx, hb, hfree⟩

def resolves (d : Directory) : Lookup → Bool
  | .category n => (d.category n).isOk
  | .account n => (d.account n).isOk
  | .product n => (d.product n).isOk

/-- The lookups in their order, up to the first that fails. -/
def asked (d : Directory) : List Lookup → List Lookup
  | [] => []
  | q :: qs => if d.resolves q then q :: d.asked qs else [q]

/-- How an entry fails after the bands that stand before it, with the lookups that are made until then. -/
inductive Stops (d : Directory) (bands : List Band) (e : Request.BandEntry) : List Lookup → Prop where
  | values (hvalues : ¬ e.HasValues) : d.Stops bands e []
  | lookup (hvalues : e.HasValues) (hmissing : ∃ q ∈ e.lookups, d.resolves q = false) :
      d.Stops bands e (d.asked e.lookups)
  | accounts {k : Category} {l x : Account} (hvalues : e.HasValues) (hk : d.category e.categoryId = .ok k)
      (hl : d.account e.liability = .ok l) (hx : d.account e.expense = .ok x)
      (hkinds : ¬ (l.kind = .liability ∧ x.kind = .expense)) : d.Stops bands e e.lookups
  | overlap {a b : Band} (hb : (d.validate e.newRequest []).answer = .ok b) (ha : a ∈ bands)
      (hshared : ¬ b.Disjoint a) : d.Stops bands e e.lookups

structure Asks (d : Directory) (x : Traced α) (qs : List Lookup) : Prop where
  lookups : x.lookups = d.asked qs
  fails : (∃ q ∈ qs, d.resolves q = false) → ∃ p, x.answer = .error p

section Asks

variable {f : α → Traced β}

theorem asks_nil {x : Traced α} (h : x.lookups = []) : d.Asks x [] := ⟨h, by simp⟩

theorem Asks.cons {q : Lookup} {answer : Except Failure α} (hq : d.resolves q = answer.isOk)
    (hrest : ∀ a, answer = .ok a → d.Asks (f a) qs) :
    d.Asks ((⟨[q], answer⟩ : Traced α) >>= f) (q :: qs) := by
  cases answer with
  | error p =>
    have hfails : d.resolves q = false := hq
    rw [Traced.mk_error_bind]
    exact ⟨by simp [asked, hfails], fun _ ↦ ⟨p, rfl⟩⟩
  | ok a =>
    have hfound : d.resolves q = true := hq
    obtain ⟨hlookups, hfails⟩ := hrest a rfl
    rw [Traced.mk_ok_bind]
    exact ⟨by simp [asked, hfound, hlookups], by simpa [hfound] using hfails⟩

theorem Asks.bind {x : Traced α} (h : d.Asks x qs) (hf : ∀ a, (f a).lookups = []) : d.Asks (x >>= f) qs := by
  obtain ⟨found, answer⟩ := x
  obtain ⟨hlookups, hfails⟩ := h
  cases answer with
  | error p => exact ⟨hlookups, fun _ ↦ ⟨p, rfl⟩⟩
  | ok a =>
    rw [Traced.mk_ok_bind, hf]
    refine ⟨by simpa using hlookups, fun hmissing ↦ ?_⟩
    obtain ⟨p, hp⟩ := hfails hmissing
    cases hp

end Asks

theorem validate_of_values (h : e.HasValues) : d.validate e.newRequest bs =
    d.findCategory e.categoryId >>= fun k ↦ d.findAccount e.liability >>= fun l ↦
      d.findAccount e.expense >>= fun x ↦ Traced.check (e.newRequest.build k l x bs none) := by
  have hages : checkAges e.newRequest.minAge e.newRequest.maxAge = .ok ⟨e.minAge, e.maxAge⟩ :=
    checkAges_eq_ok_iff.2 ⟨⟨rfl, h.1.1⟩, rfl, h.1.2⟩
  have hp : checkPercentage e.newRequest.percentage = .ok e.percentage :=
    checkPercentage_eq_ok_iff.2 ⟨⟨rfl, h.2.isFinite⟩, h.2⟩
  rw [validate, hages, hp, Traced.check_ok_bind, Traced.check_ok_bind]
  rfl

theorem asks_validate (bs : List Band) (h : e.HasValues) : d.Asks (d.validate e.newRequest bs) e.lookups := by
  rw [validate_of_values h]
  refine Asks.cons rfl fun k _ ↦ Asks.cons rfl fun l _ ↦ Asks.cons rfl fun x _ ↦ ?_
  exact asks_nil rfl

theorem validate_of_found (h : e.HasValues) (hk : d.category e.categoryId = .ok k)
    (hl : d.account e.liability = .ok l) (hx : d.account e.expense = .ok x) :
    d.validate e.newRequest bs = ⟨e.lookups, (e.newRequest.build k l x bs none).mapError .problem⟩ := by
  rw [validate_of_values h]
  simp only [findCategory, findAccount, hk, hl, hx, Traced.mk_ok_bind]
  rfl

theorem validate_eq_of_ok (h : (d.validate e.newRequest bs).answer = .ok b) :
    d.validate e.newRequest bs = ⟨e.lookups, .ok b⟩ := by
  obtain ⟨k, l, x, hk, hl, hx, hb, hfree⟩ := validate_eq_ok_iff.1 h
  rw [validate_of_found hb.hasValues hk hl hx, BandRequest.build_eq_ok_iff.2 ⟨hb, hfree⟩]
  rfl

/-- The bands beside an entry count only where they share a day with its own. -/
theorem validate_eq_ok_iff_alone : (d.validate r bs).answer = .ok b ↔
    (d.validate r []).answer = .ok b ∧ b.checkNoOverlap bs = .ok () := by
  simp only [validate_eq_ok_iff, Band.checkNoOverlap_nil, and_true]
  constructor
  · intro h
    obtain ⟨k, l, x, hk, hl, hx, hb, hfree⟩ := h
    exact ⟨⟨k, l, x, hk, hl, hx, hb⟩, hfree⟩
  · intro h
    obtain ⟨⟨k, l, x, hk, hl, hx, hb⟩, hfree⟩ := h
    exact ⟨k, l, x, hk, hl, hx, hb, hfree⟩

theorem lookups_validate_of_not_values (h : ¬ e.HasValues) : (d.validate e.newRequest bs).lookups = [] := by
  rw [validate]
  cases hages : checkAges e.newRequest.minAge e.newRequest.maxAge with
  | error p => rfl
  | ok ages =>
    rw [Traced.check_ok_bind]
    cases hp : checkPercentage e.newRequest.percentage with
    | error p => rfl
    | ok p =>
      obtain ⟨⟨hmin, hlow⟩, hmax, hlt⟩ := checkAges_eq_ok_iff.1 hages
      obtain ⟨⟨hp, -⟩, hpct⟩ := checkPercentage_eq_ok_iff.1 hp
      have hmin : e.minAge = ages.low := Value.int.inj hmin
      have hmax : e.maxAge = ages.high := Value.int.inj hmax
      have hp : e.percentage = p := hp
      exact absurd ⟨by omega, hp ▸ hpct⟩ h

theorem Stops.lookups_eq (h : d.Stops bs e qs) : (d.validate e.newRequest bs).lookups = qs := by
  cases h with
  | values hvalues => exact lookups_validate_of_not_values hvalues
  | lookup hvalues hmissing => exact (asks_validate bs hvalues).lookups
  | accounts hvalues hk hl hx hkinds => rw [validate_of_found hvalues hk hl hx]
  | overlap hb ha hshared =>
    obtain ⟨k, l, x, hk, hl, hx, hb, -⟩ := validate_eq_ok_iff.1 hb
    rw [validate_of_found hb.hasValues hk hl hx]

theorem Stops.answer_ne_ok (h : d.Stops bs e qs) (hages : ∀ a ∈ bs, a.minAge < a.maxAge) :
    (d.validate e.newRequest bs).answer ≠ .ok b := by
  intro hok
  obtain ⟨k, l, x, hk, hl, hx, hb, hfree⟩ := validate_eq_ok_iff.1 hok
  cases h with
  | values hvalues => exact hvalues hb.hasValues
  | lookup hvalues hmissing =>
    obtain ⟨p, hp⟩ := (asks_validate bs hvalues).fails hmissing
    rw [hp] at hok
    cases hok
  | accounts hvalues hk' hl' hx' hkinds =>
    obtain rfl := Except.ok.inj (hl.symm.trans hl')
    obtain rfl := Except.ok.inj (hx.symm.trans hx')
    exact hkinds ⟨hb.liability.2, hb.expense.2⟩
  | @overlap a b' halone ha hshared =>
    have hok' := (validate_eq_ok_iff_alone.1 hok).1
    obtain rfl := Except.ok.inj (hok'.symm.trans halone)
    have hversion : b.isVersionOf a = false := Band.isVersionOf_of_id_eq_none hb.id
    have hoverlaps := Band.checkNoOverlap_eq_ok_iff.1 hfree a ha hversion
    exact hshared ((Band.overlaps_eq_false_iff hb.maxAge.2 (hages a ha)).1 hoverlaps)

theorem Stops.validate_eq (h : d.Stops bs e qs) (hages : ∀ a ∈ bs, a.minAge < a.maxAge) :
    ∃ p, d.validate e.newRequest bs = ⟨qs, .error p⟩ := by
  have hlookups := h.lookups_eq
  cases hanswer : (d.validate e.newRequest bs).answer with
  | error p => exact ⟨p, by rw [← hlookups, ← hanswer]⟩
  | ok b => exact absurd hanswer (h.answer_ne_ok hages)

theorem exists_band_or_stops (d : Directory) (e : Request.BandEntry) (hages : ∀ a ∈ bs, a.minAge < a.maxAge) :
    (∃ b, (d.validate e.newRequest []).answer = .ok b ∧ b.checkNoOverlap bs = .ok ()) ∨
      ∃ qs, d.Stops bs e qs := by
  by_cases hvalues : e.HasValues
  swap
  · exact .inr ⟨_, .values hvalues⟩
  by_cases hmissing : ∃ q ∈ e.lookups, d.resolves q = false
  · exact .inr ⟨_, .lookup hvalues hmissing⟩
  have hfound : ∀ q ∈ e.lookups, d.resolves q = true := by simpa using hmissing
  simp only [Request.BandEntry.lookups, List.forall_mem_cons, resolves, isOk_eq_true_iff] at hfound
  obtain ⟨⟨k, hk⟩, ⟨l, hl⟩, ⟨x, hx⟩, -⟩ := hfound
  by_cases hkinds : l.kind = .liability ∧ x.kind = .expense
  swap
  · exact .inr ⟨_, .accounts hvalues hk hl hx hkinds⟩
  obtain ⟨b, hb⟩ := hvalues.exists_describes k hkinds.1 hkinds.2
  have halone := d.validate_eq_ok_iff.2 ⟨k, l, x, hk, hl, hx, hb, b.checkNoOverlap_nil⟩
  by_cases hdisjoint : ∀ a ∈ bs, b.Disjoint a
  · refine .inl ⟨b, halone, Band.checkNoOverlap_eq_ok_iff.2 fun a ha _ ↦ ?_⟩
    exact (Band.overlaps_eq_false_iff hb.maxAge.2 (hages a ha)).2 (hdisjoint a ha)
  · push Not at hdisjoint
    obtain ⟨a, ha, hshared⟩ := hdisjoint
    exact .inr ⟨_, .overlap halone ha hshared⟩

/-- By itself each entry stands for the band beside it, and the bands pass together. -/
structure Builds (d : Directory) (es : List Request.BandEntry) (bs : List Band) : Prop where
  alone : List.Forall₂ (fun e b ↦ (d.validate e.newRequest []).answer = .ok b) es bs
  together : checkBands bs = .ok ()

variable {es front : List Request.BandEntry}

theorem Builds.describes (h : d.Builds es bs) (hb : b ∈ bs) :
    ∃ e ∈ es, ∃ k l x, e.newRequest.Describes k l x b := by
  obtain ⟨e, he, halone⟩ := exists_of_mem_right h.alone hb
  obtain ⟨k, l, x, -, -, -, hdescribes, -⟩ := validate_eq_ok_iff.1 halone
  exact ⟨e, he, k, l, x, hdescribes⟩

theorem Builds.ages (h : d.Builds es bs) : ∀ b ∈ bs, b.minAge < b.maxAge := by
  intro b hb
  obtain ⟨_, _, _, _, _, hdescribes⟩ := h.describes hb
  exact hdescribes.maxAge.2

theorem Builds.id_eq_none (h : d.Builds es bs) : ∀ b ∈ bs, b.id = none := by
  intro b hb
  obtain ⟨_, _, _, _, _, hdescribes⟩ := h.describes hb
  exact hdescribes.id

theorem validateAll_append (done : List Band) (rest : List BandRequest)
    (halone : List.Forall₂ (fun e b ↦ (d.validate e.newRequest []).answer = .ok b) es bs)
    (htogether : checkBands (done ++ bs) = .ok ()) :
    d.validateAll done (es.map Request.BandEntry.newRequest ++ rest) =
      ⟨es.flatMap Request.BandEntry.lookups ++ (d.validateAll (done ++ bs) rest).lookups,
        (d.validateAll (done ++ bs) rest).answer⟩ := by
  induction halone generalizing done with
  | nil => simp
  | @cons e b es bs he _ ih =>
    have hsplit : done ++ b :: bs = (done ++ [b]) ++ bs := by simp
    rw [hsplit] at htogether
    obtain ⟨-, hfree⟩ := checkBands_concat_iff.1 (checkBands_of_sublist (List.sublist_append_left _ _) htogether)
    have hpasses := validate_eq_of_ok (validate_eq_ok_iff_alone.2 ⟨he, hfree⟩)
    rw [List.map_cons, List.cons_append, validateAll, hpasses, Traced.mk_ok_bind, ih _ htogether, hsplit]
    simp

theorem Builds.validateAll_eq (h : d.Builds es bs) :
    d.validateAll [] (es.map Request.BandEntry.newRequest) = ⟨es.flatMap Request.BandEntry.lookups, .ok bs⟩ := by
  have hall := validateAll_append [] [] h.alone h.together
  simpa [validateAll, Traced.lookups_pure, Traced.answer_pure] using hall

theorem Builds.validateAll_eq_of_stops (h : d.Builds front bs) (hstop : d.Stops bs e qs)
    (back : List Request.BandEntry) :
    ∃ p, d.validateAll [] ((front ++ e :: back).map Request.BandEntry.newRequest) =
      ⟨front.flatMap Request.BandEntry.lookups ++ qs, .error p⟩ := by
  obtain ⟨p, hp⟩ := hstop.validate_eq h.ages
  refine ⟨p, ?_⟩
  rw [List.map_append, validateAll_append [] _ h.alone h.together, List.nil_append, List.map_cons, validateAll, hp,
    Traced.mk_error_bind]

/-- Entries that do not stand for bands have a first one that fails. -/
theorem exists_builds_or_stops (d : Directory) (es : List Request.BandEntry) :
    (∃ bs, d.Builds es bs) ∨
      ∃ front e back bs qs, es = front ++ e :: back ∧ d.Builds front bs ∧ d.Stops bs e qs := by
  -- from the end, so that the entries before the last one are settled when it is looked at
  induction es using List.reverseRecOn with
  | nil => exact .inl ⟨[], .nil, rfl⟩
  | append_singleton es e ih =>
    rcases ih with ⟨bs, hbs⟩ | ⟨front, e', back, bs, qs, rfl, hbs, hstop⟩
    · rcases d.exists_band_or_stops e hbs.ages with ⟨b, hb, hfree⟩ | ⟨qs, hstop⟩
      · exact .inl ⟨bs ++ [b], List.rel_append hbs.alone (.cons hb .nil),
          checkBands_concat_iff.2 ⟨hbs.together, hfree⟩⟩
      · exact .inr ⟨es, e, [], bs, qs, rfl, hbs, hstop⟩
    · exact .inr ⟨front, e', back ++ [e], bs, qs, by simp, hbs, hstop⟩

theorem validateAll_eq_ok_iff :
    (d.validateAll [] (es.map Request.BandEntry.newRequest)).answer = .ok bs ↔ d.Builds es bs := by
  constructor
  · intro h
    rcases d.exists_builds_or_stops es with ⟨bs', hbs⟩ | ⟨front, e, back, bs', qs, rfl, hbs, hstop⟩
    · rw [hbs.validateAll_eq, Except.ok.injEq] at h
      exact h ▸ hbs
    · obtain ⟨p, hp⟩ := hbs.validateAll_eq_of_stops hstop back
      rw [hp] at h
      cases h
  · intro h
    rw [h.validateAll_eq]

section Products

variable {ids : List Int} {ps : List Product}

theorem asks_findProducts (d : Directory) (ids : List Int) :
    d.Asks (d.findProducts ids) (ids.map .product) := by
  induction ids with
  | nil => exact asks_nil rfl
  | cons id ids ih => exact Asks.cons rfl fun p _ ↦ ih.bind fun ps ↦ rfl

theorem findProducts_eq_ok_iff :
    (d.findProducts ids).answer = .ok ps ↔ List.Forall₂ (fun n p ↦ d.product n = .ok p) ids ps := by
  induction ids generalizing ps with
  | nil => simp [findProducts, Traced.answer_pure]
  | cons id ids ih =>
    simp only [findProducts, Traced.answer_bind, bind_eq_ok_iff, ih, Traced.answer_pure, Except.ok.injEq,
      List.forall₂_cons_left_iff]
    constructor
    · intro h
      obtain ⟨p, hp, ps, hps, rfl⟩ := h
      exact ⟨p, ps, hp, hps, rfl⟩
    · intro h
      obtain ⟨p, ps, hp, hps, rfl⟩ := h
      exact ⟨p, hp, ps, hps, rfl⟩

/-- A product is found under its own id. -/
def Keyed (d : Directory) : Prop := ∀ n p, d.product n = .ok p → p.id = n

theorem Keyed.forall₂_product_iff (hd : d.Keyed) :
    List.Forall₂ (fun n p ↦ d.product n = .ok p) ids ps ↔
      ps.map Product.id = ids ∧ ∀ p ∈ ps, d.product p.id = .ok p := by
  constructor
  · intro h
    induction h with
    | nil => simp
    | @cons n p ids ps hp _ ih =>
      obtain rfl := hd n p hp
      exact ⟨by simp [ih.1], List.forall_mem_cons.2 ⟨hp, ih.2⟩⟩
  · intro h
    obtain ⟨rfl, hps⟩ := h
    exact List.forall₂_map_left_iff.2 (List.forall₂_same.2 hps)

theorem exists_forall₂_iff {R : α → β → Prop} {xs : List α} :
    (∃ ys, List.Forall₂ R xs ys) ↔ ∀ x ∈ xs, ∃ y, R x y := by
  induction xs with
  | nil => simp
  | cons x xs ih =>
    rw [List.forall_mem_cons, ← ih]
    simp only [List.forall₂_cons_left_iff]
    constructor
    · intro h
      obtain ⟨-, y, ys, hy, hys, -⟩ := h
      exact ⟨⟨y, hy⟩, ys, hys⟩
    · intro h
      obtain ⟨⟨y, hy⟩, ys, hys⟩ := h
      exact ⟨_, y, ys, hy, hys, rfl⟩

end Products

/-- The lookups that a request for a new criteria makes: those of all entries up to the first that fails, and
after the last one those of the products. -/
inductive Traces (d : Directory) (r : Request.NewCriteria) : List Lookup → Prop where
  | stopped {front back : List Request.BandEntry} {e : Request.BandEntry} {bs : List Band} {qs : List Lookup}
      (hbands : r.bands = front ++ e :: back) (hfront : d.Builds front bs) (hstop : d.Stops bs e qs) :
      d.Traces r (front.flatMap Request.BandEntry.lookups ++ qs)
  | passed {bs : List Band} (hall : d.Builds r.bands bs) :
      d.Traces r (r.bands.flatMap Request.BandEntry.lookups ++ d.asked (r.productIds.eraseDups.map .product))

theorem Traces.lookups_eq {r : Request.NewCriteria} (h : d.Traces r qs) : (d.assemble r).lookups = qs := by
  rw [assemble]
  cases h with
  | @stopped front back e bs qs hbands hfront hstop =>
    obtain ⟨p, hp⟩ := hfront.validateAll_eq_of_stops hstop back
    rw [hbands, hp, Traced.mk_error_bind]
  | @passed bs hall =>
    have hproducts : d.Asks
        (d.distinctProducts r.productIds >>= fun ps ↦ Traced.check (Criteria.create (.str r.name) bs ps))
        (r.productIds.eraseDups.map .product) := (d.asks_findProducts _).bind fun ps ↦ rfl
    rw [hall.validateAll_eq, Traced.mk_ok_bind, hproducts.lookups]

theorem traces_iff {r : Request.NewCriteria} : d.Traces r qs ↔ (d.assemble r).lookups = qs := by
  constructor
  · exact Traces.lookups_eq
  · intro h
    subst h
    rcases d.exists_builds_or_stops r.bands with ⟨bs, hall⟩ | ⟨front, e, back, bs, qs, hbands, hfront, hstop⟩
    · rw [(Traces.passed hall).lookups_eq]
      exact .passed hall
    · rw [(Traces.stopped hbands hfront hstop).lookups_eq]
      exact .stopped hbands hfront hstop

theorem Keyed.assemble_eq_ok_iff (hd : d.Keyed) {r : Request.NewCriteria} {c : Criteria} :
    (d.assemble r).answer = .ok c ↔
      (ProperName r.name ∧ r.bands ≠ []) ∧ ∃ bs ps, c = ⟨none, r.name, bs, ps⟩ ∧ d.Builds r.bands bs ∧
        ps.map Product.id = r.productIds.eraseDups ∧ ∀ p ∈ ps, d.product p.id = .ok p := by
  have hdistinct := nodup_eraseDups r.productIds
  have hnonempty {bs : List Band} (hbs : d.Builds r.bands bs) : bs ≠ [] ↔ r.bands ≠ [] := by
    rw [← List.length_pos_iff, ← List.length_pos_iff, hbs.alone.length_eq]
  simp only [assemble, distinctProducts, Traced.answer_bind, bind_eq_ok_iff, validateAll_eq_ok_iff,
    findProducts_eq_ok_iff, hd.forall₂_product_iff, Traced.answer_check_eq_ok_iff]
  constructor
  · intro h
    obtain ⟨bs, hbs, ps, ⟨hids, hps⟩, hc⟩ := h
    obtain ⟨⟨hname, hne⟩, rfl⟩ := (Criteria.create_eq_ok_iff (hids ▸ hdistinct)).1 hc
    exact ⟨⟨hname, (hnonempty hbs).1 hne⟩, bs, ps, rfl, hbs, hids, hps⟩
  · intro h
    obtain ⟨⟨hname, hne⟩, bs, ps, rfl, hbs, hids, hps⟩ := h
    exact ⟨bs, hbs, ps, ⟨hids, hps⟩,
      (Criteria.create_eq_ok_iff (hids ▸ hdistinct)).2 ⟨⟨hname, (hnonempty hbs).2 hne⟩, rfl⟩⟩

theorem Keyed.exists_products_iff (hd : d.Keyed) {ids : List Int} :
    (∃ ps : List Product, ps.map Product.id = ids ∧ ∀ p ∈ ps, d.product p.id = .ok p) ↔
      ∀ n ∈ ids, ∃ p, d.product n = .ok p := by
  simp only [← hd.forall₂_product_iff, exists_forall₂_iff]

theorem keyed_ofRows (categories : List Category) (accounts : List Account) (products : List Product) :
    (ofRows categories accounts products).Keyed := by
  intro n p h
  simp only [ofRows, findLast] at h
  split at h
  · rename_i row hfind
    obtain rfl := Except.ok.inj h
    have hid := List.find?_some hfind
    exact beq_iff_eq.1 hid
  · cases h

/-- A criteria is made of the bands that the entries stand for one by one, if these pass together, and of the
products in the order in which their ids come first. The lookups show how far the request got: each entry
makes three, up to the first lookup that fails or the first entry that does, and only after the last entry
each id of a product is looked up once, up to the first that is unknown. -/
theorem assemble_entrywise (hd : d.Keyed) (r : Request.NewCriteria) :
    ((∃ c, (d.assemble r).answer = .ok c) ↔
      (∃ bs, d.Builds r.bands bs) ∧ r.bands ≠ [] ∧ (∀ n ∈ r.productIds, ∃ p, d.product n = .ok p) ∧
        ProperName r.name) ∧
    (∀ c, (d.assemble r).answer = .ok c → ∃ bs ps, c = ⟨none, r.name, bs, ps⟩ ∧ d.Builds r.bands bs ∧
      (∀ b ∈ bs, b.id = none) ∧ ps.map Product.id = r.productIds.eraseDups ∧
      ∀ p ∈ ps, d.product p.id = .ok p) ∧
    ∀ qs, d.Traces r qs ↔ (d.assemble r).lookups = qs := by
  simp only [hd.assemble_eq_ok_iff]
  refine ⟨?_, fun c h ↦ ?_, fun qs ↦ traces_iff⟩
  · have hproducts : (∀ n ∈ r.productIds, ∃ p, d.product n = .ok p) ↔
        ∀ n ∈ r.productIds.eraseDups, ∃ p, d.product n = .ok p := by
      simp only [List.mem_eraseDups]
    rw [hproducts, ← hd.exists_products_iff]
    constructor
    · intro h
      obtain ⟨c, ⟨hname, hne⟩, bs, ps, -, hbs, hps⟩ := h
      exact ⟨⟨bs, hbs⟩, hne, ⟨ps, hps⟩, hname⟩
    · intro h
      obtain ⟨⟨bs, hbs⟩, hne, ⟨ps, hps⟩, hname⟩ := h
      exact ⟨_, ⟨hname, hne⟩, bs, ps, rfl, hbs, hps⟩
  · obtain ⟨-, bs, ps, hc, hbs, hps⟩ := h
    exact ⟨bs, ps, hc, hbs, hbs.id_eq_none, hps⟩

end Directory

namespace Sample

def reference : Directory :=
  .ofRows [⟨1, "Standard", none⟩] [⟨1, "Reserve", "2100", .liability⟩, ⟨2, "Expense", "6100", .expense⟩]
    [⟨1, "Car"⟩, ⟨2, "House"⟩, ⟨2, "Home"⟩]

def bookedOn (expense : Int) : Request.NewCriteria where
  name := "Ageing"
  bands := [⟨.given 5, 1, 0, 30, .finite false 25 (-1), 1, 2⟩, ⟨.absent, 1, 30, 60, .finite false 50 0, 1, expense⟩]
  products := some [2, 1, 2]

end Sample

theorem Directory.assemble_entrywise_of_unknown_account :
    Sample.reference.Keyed ∧
      (∃ c, (Sample.reference.assemble (Sample.bookedOn 2)).answer = .ok c) ∧
      Sample.reference.Traces (Sample.bookedOn 2) [.category 1, .account 1, .account 2, .category 1, .account 1,
        .account 2, .product 2, .product 1] ∧
      Sample.reference.Traces (Sample.bookedOn 9) [.category 1, .account 1, .account 2, .category 1, .account 1,
        .account 9] := by
  have hkeyed : Sample.reference.Keyed := keyed_ofRows _ _ _
  have hbuilds : Sample.reference.Builds (Sample.bookedOn 2).bands
      [Sample.aged none 1 0 30, { Sample.aged none 1 30 60 with percentage := .finite false 50 0 }] :=
    ⟨.cons rfl (.cons rfl .nil), rfl⟩
  have hproducts : ∀ n ∈ (Sample.bookedOn 2).productIds, ∃ p, Sample.reference.product n = .ok p := by
    have hhome : Sample.reference.product 2 = .ok ⟨2, "Home"⟩ := rfl
    have hcar : Sample.reference.product 1 = .ok ⟨1, "Car"⟩ := rfl
    simp [Sample.bookedOn, Request.NewCriteria.productIds, hhome, hcar]
  have hname : ProperName (Sample.bookedOn 2).name := ⟨⟨'A', by decide, by decide⟩, by decide⟩
  have hbands : (Sample.bookedOn 2).bands ≠ [] := by simp [Sample.bookedOn]
  refine ⟨hkeyed, (assemble_entrywise hkeyed _).1.2 ⟨⟨_, hbuilds⟩, hbands, hproducts, hname⟩, ?_, ?_⟩
  · exact ((assemble_entrywise hkeyed _).2.2 _).2 rfl
  · exact ((assemble_entrywise hkeyed _).2.2 _).2 rfl

end Provisioning
