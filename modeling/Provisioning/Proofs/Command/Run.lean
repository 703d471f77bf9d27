import Provisioning.Proofs.Command.Steps

namespace Provisioning

/-- A command, and the call at which the store stops it if it does. -/
structure Call where
  command : Command
  fault : Option Fault

def Service.call (v : Service) (c : Call) : Report × Service := v.run c.fault c.command

def Service.runAll (v : Service) : List Call → List Report × Service
  | [] => ([], v)
  | c :: cs => ((v.call c).1 :: ((v.call c).2.runAll cs).1, ((v.call c).2.runAll cs).2)

structure Store.Blank (s : Store) : Prop where
  headers : s.headers = []
  bands : s.bands = []
  links : s.links = []

namespace Store

variable {s : Store}

theorem Blank.consistent (hs : s.Blank) : s.Consistent := by
  obtain ⟨hheaders, hbands, hlinks⟩ := hs
  constructor <;> simp [hheaders, hbands, hlinks]

def Keeps (s t : Store) : Prop := t.Consistent ∧ s.Agrees t

theorem Consistent.keeps (hs : s.Consistent) : s.Keeps s := ⟨hs, .refl s⟩

theorem Consistent.sound_of_get (hs : s.Consistent) {id : Int} {c : Criteria}
    (h : s.get id = .ok c) : c.Sound s := by
  obtain ⟨q, hget, rfl⟩ := (get_eq_ok_iff hs.readable).1 h
  have hq : q.id = id := (mem_and_id_of_getRow hget).2
  exact hs.criteria_sound (hq.symm ▸ hget)

theorem Consistent.of_becomes (hs : s.Consistent) {t : Store} (h : s.Becomes t) : s.Keeps t := by
  cases h with
  | same => exact hs.keeps
  | created hc hwrite => exact hs.of_run_write (sound_of_assemble hc) hwrite
  | updated hget hrevise hwrite =>
    obtain ⟨-, -, hsound, -⟩ := hs.revise_eq_ok (hs.sound_of_get hget) hget hrevise
    exact hs.of_run_write hsound hwrite
  | deleted hdelete _ => exact ⟨hs.of_delete hdelete, agrees_of_delete hdelete⟩

end Store

namespace Sample

def store : Store where
  foreignKeys := true
  categories := [⟨1, "Standard", none⟩]
  accounts := [⟨1, "Loan loss reserve", "2100", 2⟩, ⟨2, "Loan loss expense", "6100", 5⟩]
  products := [⟨1, "Micro"⟩, ⟨2, "Rural"⟩]
  headers := []
  bands := []
  links := []
  entries := []

def entry (id : Request.Presence Int) (low high : Int) : Request.BandEntry :=
  ⟨id, 1, low, high, .finite false 25 (-1), 1, 2⟩

def monthly : Request.NewCriteria :=
  ⟨"Monthly", [entry .absent 0 30, entry .absent 30 60], some [1]⟩

def weekly : Request.NewCriteria := ⟨"Weekly", [entry .absent 0 7], some [2]⟩

def changes (band product : Int) : Request.Changes :=
  ⟨.given "Quarterly",
    .given [entry (.given band) 0 90, entry .absent 90 180, entry (.given band) 0 20],
    .given [product]⟩

end Sample

namespace Service

variable {v : Service} {before : List Call} {c : Call} {e : Failure}

theorem keeps_call (hv : v.store.Consistent) (c : Call) : v.store.Keeps (v.call c).2.store :=
  hv.of_becomes (Store.becomes_run v.store c.fault c.command)

theorem keeps_runAll (hv : v.store.Consistent) (calls : List Call) :
    v.store.Keeps (v.runAll calls).2.store := by
  induction calls generalizing v with
  | nil => exact hv.keeps
  | cons c cs ih =>
    obtain ⟨hstep, hsame⟩ := keeps_call hv c
    obtain ⟨hrest, hsame'⟩ := ih hstep
    exact ⟨hrest, hsame.trans hsame'⟩

theorem runAll_append (v : Service) (cs ds : List Call) :
    v.runAll (cs ++ ds) =
      ((v.runAll cs).1 ++ ((v.runAll cs).2.runAll ds).1, ((v.runAll cs).2.runAll ds).2) := by
  induction cs generalizing v with
  | nil => rfl
  | cons c cs ih => simp only [List.cons_append, runAll, ih]

/-- Metrics are counted, but no command looks at them. -/
theorem runAll_congr {v w : Service} (h : v.store = w.store) (cs : List Call) :
    (v.runAll cs).1 = (w.runAll cs).1 ∧ (v.runAll cs).2.store = (w.runAll cs).2.store := by
  induction cs generalizing v w with
  | nil => exact ⟨rfl, h⟩
  | cons c cs ih =>
    have hreport : (v.call c).1 = (w.call c).1 := by
      simp only [call, run, h]
    have hstore : (v.call c).2.store = (w.call c).2.store := congrArg Report.store hreport
    obtain ⟨hreports, hlast⟩ := ih hstore
    exact ⟨by rw [runAll, runAll, hreport, hreports], hlast⟩

theorem store_eq_of_call_error (h : (v.call c).1.answer = .error e) : (v.call c).2.store = v.store := by
  obtain ⟨command, fault⟩ := c
  cases command with
  | create payload =>
    simp only [call, run, Command.run, Store.create] at h ⊢
    split at h <;> exact Report.store_eq_of_close_error h
  | update id payload =>
    simp only [call, run, Command.run, Store.update] at h ⊢
    split at h <;> exact Report.store_eq_of_close_error h
  | delete id => exact Report.store_eq_of_close_error h

/-- However commands follow one another, all stored criteria obey the rules, and no name, product or
band id belongs to two of them. -/
theorem runAll_lawful (hv : v.store.Blank) (calls : List Call) :
    let t := (v.runAll calls).2.store
    v.store.Agrees t ∧
      (∃ cs, t.all = .ok cs ∧ (∀ c ∈ cs, c.Lawful t) ∧ (cs.map Criteria.name).Nodup) ∧
      (t.links.map Link.productId).Nodup ∧ (t.bands.map BandRow.id).Nodup := by
  obtain ⟨ht, hsame⟩ := keeps_runAll hv.consistent calls
  refine ⟨hsame, ⟨_, Store.all_eq ht.readable, fun c hc ↦ ?_, ?_⟩, ht.linkUnique, ht.ordered.nodup_bandIds⟩
  · obtain ⟨h, hh, rfl⟩ := List.mem_map.1 hc
    exact ht.criteria_lawful hh
  · rw [List.map_map]
    exact ht.names

theorem runAll_lawful_of_created :
    Sample.store.Blank ∧
      ∃ c, ((start Sample.store).runAll [⟨.create Sample.monthly.dump, none⟩]).2.store.all = .ok [c] ∧
        c.Lawful ((start Sample.store).runAll [⟨.create Sample.monthly.dump, none⟩]).2.store := by
  have hblank : Sample.store.Blank := ⟨rfl, rfl, rfl⟩
  obtain ⟨-, ⟨cs, hall, hlawful, -⟩, -⟩ :=
    runAll_lawful (v := start Sample.store) hblank [⟨.create Sample.monthly.dump, none⟩]
  have hlength : (((start Sample.store).runAll
      [⟨.create Sample.monthly.dump, none⟩]).2.store.all).map List.length = .ok 1 := rfl
  rw [hall] at hlength
  obtain ⟨c, rfl⟩ := List.length_eq_one_iff.1 (Except.ok.inj hlength)
  exact ⟨hblank, c, hall, hlawful c (List.mem_singleton_self c)⟩

/-- A call that ends in an error leaves every row as it was, and the calls after it get the reports
that they get without it. -/
theorem runAll_insert_of_error (later : List Call)
    (h : ((v.runAll before).2.call c).1.answer = .error e) :
    ((v.runAll before).2.call c).2.store = (v.runAll before).2.store ∧
      ∃ reports, (v.runAll (before ++ later)).1 = (v.runAll before).1 ++ reports ∧
        (v.runAll (before ++ c :: later)).1 =
          (v.runAll before).1 ++ ((v.runAll before).2.call c).1 :: reports ∧
        (v.runAll (before ++ c :: later)).2.store = (v.runAll (before ++ later)).2.store := by
  have hstore := store_eq_of_call_error h
  obtain ⟨hreports, hlast⟩ := runAll_congr hstore later
  refine ⟨hstore, ((v.runAll before).2.runAll later).1, ?_, ?_, ?_⟩
  · rw [runAll_append]
  · rw [runAll_append, runAll, hreports]
  · rw [runAll_append, runAll_append]
    exact hlast

theorem runAll_insert_of_product_taken :
    let before : List Call := [⟨.create Sample.monthly.dump, none⟩, ⟨.create Sample.weekly.dump, none⟩]
    let failing : Call := ⟨.update 2 (Sample.changes 3 1).dump, none⟩
    let later : List Call := [⟨.delete 1, none⟩, ⟨.update 2 (Sample.changes 3 1).dump, none⟩]
    let s := ((start Sample.store).runAll before).2.store
    (((start Sample.store).runAll before).2.call failing).1.answer = .error (.domain .productTaken) ∧
      ((Store.updateFrom none 2 (Sample.changes 3 1)).run s).2.headers ≠ s.headers ∧
      ((start Sample.store).runAll (before ++ failing :: later)).2.store =
        ((start Sample.store).runAll (before ++ later)).2.store := by
  intro before failing later s
  have herror : (((start Sample.store).runAll before).2.call failing).1.answer =
      .error (.domain .productTaken) := rfl
  obtain ⟨-, reports, -, -, hstore⟩ := runAll_insert_of_error later herror
  exact ⟨herror, by decide +kernel, hstore⟩

end Service

/-- The store is what calls make of a store without criteria. -/
def Store.Reachable (s : Store) : Prop :=
  ∃ v : Service, v.store.Blank ∧ ∃ calls, (v.runAll calls).2.store = s

theorem Store.Reachable.consistent {s : Store} (hs : s.Reachable) : s.Consistent := by
  obtain ⟨v, hv, calls, rfl⟩ := hs
  exact (Service.keeps_runAll hv.consistent calls).1

end Provisioning
