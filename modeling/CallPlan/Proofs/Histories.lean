import CallPlan.Proofs.CatalogFiles
import CallPlan.Proofs.Permission

/-!
# Histories of catalogues

Entries are offered to a catalogue one after the other, and each is accepted or rejected. One that
is rejected leaves no trace. Whatever is offered, the catalogue lists the names of the accepted
entries in the order in which they were accepted first, each once and with the entry that was
accepted last (`Catalog.Keeps`). This holds of the empty catalogue, and each entry that is added
keeps it so (`Catalog.Keeps.of_add`).

What is read off a catalogue depends on this. Constructors of inner types find the enclosing class,
and producers come in the order of the entries (`History.exists_keeps`).
-/

namespace CallPlan

/-! ### Lists that grow at the end -/

section

variable {α κ : Type} [DecidableEq κ] {key : α → κ} {as : List α} {a b : α}

/-- A last element replaces all others with its key. -/
theorem mem_latest_append_singleton :
    b ∈ latest key (as ++ [a]) ↔ b = a ∨ b ∈ latest key as ∧ key b ≠ key a := by
  induction as with
  | nil =>
    rw [List.nil_append, latest_cons]
    simp [latest]
  | cons c as ih =>
    simp only [List.cons_append, latest_cons, List.forall_mem_append, List.forall_mem_singleton]
    split_ifs <;> grind

/-- The elements stand **in order of** another list: in the order in which that list first has
them. -/
def InOrderOf (all listed : List κ) : Prop :=
  listed.Pairwise fun c d => all.idxOf c < all.idxOf d

variable {all listed : List κ} {c : κ}

/-- The order does not change when the other list grows. -/
theorem InOrderOf.append_singleton (h : InOrderOf all listed) (hmem : ∀ c ∈ listed, c ∈ all)
    (c : κ) : InOrderOf (all ++ [c]) listed := by
  refine h.imp_of_mem fun {d d'} hd hd' hlt => ?_
  rwa [List.idxOf_append_of_mem (hmem d hd), List.idxOf_append_of_mem (hmem d' hd')]

/-- An element that is new to both lists comes last in both. -/
theorem InOrderOf.concat (h : InOrderOf all listed) (hmem : ∀ c ∈ listed, c ∈ all)
    (hnew : c ∉ all) : InOrderOf (all ++ [c]) (listed ++ [c]) := by
  refine List.pairwise_append.mpr ⟨h.append_singleton hmem c, List.pairwise_singleton _ _, ?_⟩
  rintro d hd d' hd'
  obtain rfl := List.mem_singleton.mp hd'
  rw [List.idxOf_append_of_mem (hmem d hd), List.idxOf_append_of_notMem hnew]
  exact Nat.lt_add_right _ (List.idxOf_lt_length_of_mem (hmem d hd))

end

/-- Member types are members of a type. -/
theorem ClassName.exists_eq_member {c : ClassName} (h : c.isMember = true) :
    ∃ (outer : ClassName) (simpleName : String), c = outer.member simpleName := by
  have hmembers : c.members ≠ [] := by simpa [isMember] using h
  refine ⟨{ c with members := c.members.dropLast }, c.members.getLast hmembers, ?_⟩
  rw [member, List.dropLast_append_getLast]

/-! ### What is accepted -/

namespace Entry

variable {e : Entry}

instance (e : Entry) : Decidable e.WellFormed := inferInstanceAs (Decidable (_ ∧ _))

theorem fault?_eq_none_iff : e.fault? = none ↔ e.WellFormed := by
  refine ⟨wellFormed_of_fault?, fun ⟨hinner, howner⟩ => ?_⟩
  rw [fault?, if_neg, Option.map_eq_none_iff, List.find?_eq_none]
  · simpa using howner
  · simpa using hinner

end Entry

namespace Catalog

variable {k k' : Catalog} {e : Entry} {accepted : List Entry}

theorem entries_of_add (h : k.add e = .ok k') : k'.entries = e.putInto k.entries := by
  unfold add at h
  split at h
  · cases h
  · obtain rfl := Except.ok.inj h
    rfl

/-- A catalogue accepts the well-formed entries, whatever it holds. -/
theorem exists_add_eq_ok_iff : (∃ k', k.add e = .ok k') ↔ e.WellFormed := by
  constructor
  · rintro ⟨k', h⟩
    exact (of_add_eq_ok h).1
  · intro h
    unfold add
    split
    · rename_i hfault
      rw [Entry.fault?_eq_none_iff.mpr h] at hfault
      cases hfault
    · exact ⟨_, rfl⟩

/-- A catalogue **keeps** the entries that it accepted: their names are listed in the order in which
they come first, and with each name the entry that comes last. -/
structure Keeps (k : Catalog) (accepted : List Entry) : Prop where
  mem_names_iff : ∀ c, c ∈ k.entries.map Entry.name ↔ c ∈ accepted.map Entry.name
  inOrder : InOrderOf (accepted.map Entry.name) (k.entries.map Entry.name)
  mem_entries_iff : ∀ e, e ∈ k.entries ↔ e ∈ latest Entry.name accepted

theorem keeps_empty : empty.Keeps [] where
  mem_names_iff _ := .rfl
  inOrder := .nil
  mem_entries_iff _ := .rfl

/-- A catalogue that keeps its entries keeps one more when it accepts it. -/
theorem Keeps.of_add (h : k.Keeps accepted) (hadd : k.add e = .ok k') :
    k'.Keeps (accepted ++ [e]) := by
  have hnames := Entry.map_name_putInto e k.entries
  rw [← entries_of_add hadd] at hnames
  have hsub : ∀ c ∈ k.entries.map Entry.name, c ∈ accepted.map Entry.name :=
    fun c => (h.mem_names_iff c).mp
  constructor
  · intro c
    have hc := h.mem_names_iff c
    rw [hnames, List.map_append, List.map_singleton, List.mem_append]
    split_ifs with hknown
    · rw [hc]
      grind
    · rw [List.mem_append, hc]
  · rw [hnames, List.map_append, List.map_singleton]
    split_ifs with hknown
    · exact h.inOrder.append_singleton hsub e.name
    · exact h.inOrder.concat hsub fun hmem => hknown ((h.mem_names_iff e.name).mpr hmem)
  · intro d
    rw [(of_add_eq_ok hadd).2, mem_latest_append_singleton, h.mem_entries_iff]

/-- Under every name stands the entry that was accepted last under it. -/
theorem Keeps.find?_eq_some_iff (h : k.Keeps accepted) {c : ClassName} :
    k.find? c = some e ↔ e ∈ latest Entry.name accepted ∧ e.name = c := by
  rw [Catalog.find?_eq_some_iff, h.mem_entries_iff]

/-! ### What is read off -/

/-- Constructors of inner types get the class that the type is a member of. -/
theorem implicit?_of_inner {op : Operation} (he : e ∈ k.entries) (hinner : e.inner = true)
    (hop : op ∈ e.constructors) :
    ∃ (outer : ClassName) (simpleName : String), e.name = outer.member simpleName ∧
      k.implicit? op = some (.enclosing outer) := by
  obtain ⟨hmem, hconstructor⟩ := List.mem_filter.mp hop
  obtain ⟨hmember, howner⟩ := k.wellFormed e he
  have hisInner : k.isInner op.owner = true := by
    rw [isInner, find?_owner he hmem]
    exact hinner
  obtain ⟨outer, simpleName, hname⟩ := ClassName.exists_eq_member (hmember hinner)
  refine ⟨outer, simpleName, hname, ?_⟩
  rw [implicit?, if_pos hconstructor, if_pos hisInner, howner op hmem, hname,
    ClassName.enclosing?_member]
  rfl

/-- An operation may be used, can be called for its result, and the result can be assigned. -/
def isProducer (k : Catalog) (t : TypeExpr) (granted : Access) (op : Operation) : Bool :=
  op.access.admits granted && !op.isAbstract &&
    (if op.isConstructor then !k.isAbstract op.owner else !op.result.isVoid) &&
    k.assignable op.result t

/-- Producers come in the order of the entries, and of the operations in each. -/
theorem producers_eq_filter (k : Catalog) (t : TypeExpr) (granted : Access) :
    k.producers t granted =
      (k.entries.flatMap Entry.operations).filter (k.isProducer t granted) := by
  rw [producers, List.filter_flatMap]
  refine List.flatMap_congr fun e he => List.filter_congr fun op hop => ?_
  rw [isProducer, yieldsValue, isAbstract_owner he hop, Bool.and_assoc, Bool.and_assoc,
    Bool.and_assoc, Bool.and_assoc]

end Catalog

/-! ### Offers one after the other -/

/-- A catalogue, and the entries that it accepted so far. -/
structure History where
  catalog : Catalog
  accepted : List Entry

namespace History

/-- Nothing was offered yet. -/
def start : History := ⟨.empty, []⟩

/-- Offers an entry to the catalogue, which stays as it is if it does not accept the entry. -/
def offer (h : History) (e : Entry) : History :=
  match h.catalog.add e with
  | .ok k => ⟨k, h.accepted ++ [e]⟩
  | .error _ => h

/-- What comes of entries that are offered one after the other. -/
def ofOffers (offered : List Entry) : History := offered.foldl offer start

variable {h : History} {e : Entry}

/-- An entry is added if it is well-formed, and else nothing happens. -/
theorem offer_cases (h : History) (e : Entry) :
    (e.WellFormed ∧ ∃ k, h.catalog.add e = .ok k ∧ h.offer e = ⟨k, h.accepted ++ [e]⟩) ∨
      (¬ e.WellFormed ∧ h.offer e = h) := by
  unfold offer
  cases hadd : h.catalog.add e with
  | ok k => exact .inl ⟨Catalog.exists_add_eq_ok_iff.mp ⟨k, hadd⟩, k, rfl, rfl⟩
  | error fault =>
    refine .inr ⟨fun hformed => ?_, rfl⟩
    obtain ⟨k, hk⟩ := Catalog.exists_add_eq_ok_iff.mpr hformed
    rw [hadd] at hk
    cases hk

/-- A catalogue keeps its entries whether the one that it is offered is accepted or not. -/
theorem keeps_offer (hkeeps : h.catalog.Keeps h.accepted) (e : Entry) :
    (h.offer e).catalog.Keeps (h.offer e).accepted := by
  obtain ⟨-, k, hadd, hoffer⟩ | ⟨-, hoffer⟩ := h.offer_cases e
  · rw [hoffer]
    exact hkeeps.of_add hadd
  · rwa [hoffer]

/-- An entry is accepted exactly if it is well formed. -/
theorem accepted_offer (h : History) (e : Entry) :
    (h.offer e).accepted = h.accepted ++ [e].filter (·.WellFormed) := by
  obtain ⟨hformed, k, -, hoffer⟩ | ⟨hformed, hoffer⟩ := h.offer_cases e
  · simp [hoffer, hformed]
  · simp [hoffer, hformed]

theorem ofOffers_append_singleton (offered : List Entry) (e : Entry) :
    ofOffers (offered ++ [e]) = (ofOffers offered).offer e := by
  rw [ofOffers, List.foldl_concat]
  rfl

/-- Whatever it is offered, a catalogue keeps the entries that it accepted. -/
theorem keeps_ofOffers (offered : List Entry) :
    (ofOffers offered).catalog.Keeps (ofOffers offered).accepted := by
  induction offered using List.reverseRecOn with
  | nil => exact Catalog.keeps_empty
  | append_singleton offered e ih =>
    rw [ofOffers_append_singleton]
    exact keeps_offer ih e

/-- Of all entries offered, the well-formed ones are accepted, in order. -/
theorem accepted_ofOffers (offered : List Entry) :
    (ofOffers offered).accepted = offered.filter (·.WellFormed) := by
  induction offered using List.reverseRecOn with
  | nil => rfl
  | append_singleton offered e ih =>
    rw [ofOffers_append_singleton, accepted_offer, ih, List.filter_append]

/-- What is rejected leaves no trace. -/
theorem ofOffers_append_cons {offered : List Entry} {fault : CatalogError}
    (hadd : (ofOffers offered).catalog.add e = .error fault) (later : List Entry) :
    ofOffers (offered ++ e :: later) = ofOffers (offered ++ later) := by
  have hsame : (ofOffers offered).offer e = ofOffers offered := by rw [offer, hadd]
  rw [ofOffers, List.foldl_append, List.foldl_cons, ← ofOffers, hsame, ofOffers, ofOffers,
    List.foldl_append]

/-- **Catalogues keep what was accepted last, in the order of what was accepted first.** Whatever is
offered to a catalogue that was empty at first, it accepts the well-formed entries, and an entry
that it rejects leaves no trace, neither at once nor after later offers. It lists every accepted
name once, in the order of first acceptance, and with each name the entry that was accepted last;
this is also the entry that is found under the name. All entries are well-formed: an inner type is a
member type, and operations are those of their entries. So constructors of inner types get the
enclosing class for their implicit argument, and the producers of a type are the operations that can
be used for it, in the order of the entries. -/
theorem exists_keeps (offered : List Entry) :
    ∃ k accepted, ofOffers offered = ⟨k, accepted⟩ ∧
      accepted = offered.filter (·.WellFormed) ∧
      (∀ e fault later, k.add e = .error fault →
        ofOffers (offered ++ e :: later) = ofOffers (offered ++ later)) ∧
      k.Keeps accepted ∧ (k.entries.map Entry.name).Nodup ∧
      (∀ c e, k.find? c = some e ↔ e ∈ latest Entry.name accepted ∧ e.name = c) ∧
      (∀ e ∈ k.entries, e.WellFormed ∧
        (e.inner = true → ∀ op ∈ e.constructors,
          ∃ (outer : ClassName) (simpleName : String), e.name = outer.member simpleName ∧
            k.implicit? op = some (.enclosing outer))) ∧
      ∀ t granted, k.producers t granted =
        (k.entries.flatMap Entry.operations).filter (k.isProducer t granted) := by
  have hkeeps := keeps_ofOffers offered
  refine ⟨(ofOffers offered).catalog, (ofOffers offered).accepted, rfl, accepted_ofOffers offered,
    fun e fault later hadd => ofOffers_append_cons hadd later, hkeeps, Catalog.nodup _,
    fun c e => hkeeps.find?_eq_some_iff, fun e he => ⟨Catalog.wellFormed _ e he, ?_⟩,
    Catalog.producers_eq_filter _⟩
  exact fun hinner op hop => Catalog.implicit?_of_inner he hinner hop

end History

namespace Shelf

/-- A class that is described without operations at first. -/
def shelf : Entry := { name := .topLevel "demo" "Shelf" }

/-- An inner type that is not a member type. -/
def loose : Entry := { name := .topLevel "demo" "Drawer", inner := true }

/-- The constructor of an inner type. -/
def makeDrawer : Operation :=
  { owner := shelf.name.member "Drawer", kind := .constructor, parameters := [] }

def drawer : Entry :=
  { name := shelf.name.member "Drawer", inner := true, operations := [makeDrawer] }

/-- The class once more, with a constructor. -/
def sturdyShelf : Entry :=
  { shelf with operations := [{ owner := shelf.name, kind := .constructor, parameters := [] }] }

/-- A class that lists the constructor of another one. -/
def cupboard : Entry := { name := .topLevel "demo" "Cupboard", operations := [makeDrawer] }

def offers : List Entry := [shelf, loose, drawer, sturdyShelf]

/-- The shelf is replaced where it stands, and two of the entries are rejected. -/
theorem exists_keeps_offers :
    ∃ k, History.ofOffers offers = ⟨k, [shelf, drawer, sturdyShelf]⟩ ∧
      k.entries = [sturdyShelf, drawer] ∧ k.Keeps [shelf, drawer, sturdyShelf] ∧
      k.add cupboard = .error (.foreignOperation cupboard.name makeDrawer) ∧
      History.ofOffers (offers ++ [cupboard]) = History.ofOffers offers ∧
      drawer ∈ k.entries ∧ drawer.inner = true ∧ makeDrawer ∈ drawer.constructors ∧
      ∃ (outer : ClassName) (simpleName : String), drawer.name = outer.member simpleName ∧
        k.implicit? makeDrawer = some (.enclosing outer) := by
  obtain ⟨k, accepted, hk, -, htrace, hkeeps, -, -, hentries, -⟩ := History.exists_keeps offers
  have haccepted : (History.ofOffers offers).accepted = [shelf, drawer, sturdyShelf] := by rfl
  have hlisted : (History.ofOffers offers).catalog.entries = [sturdyShelf, drawer] := by rfl
  have hrejected : (History.ofOffers offers).catalog.add cupboard =
      .error (.foreignOperation cupboard.name makeDrawer) := by rfl
  rw [hk] at haccepted hlisted hrejected
  obtain rfl : accepted = _ := haccepted
  have hmem : drawer ∈ k.entries := by
    rw [hlisted]
    exact List.mem_cons_of_mem _ List.mem_cons_self
  have hconstructor : makeDrawer ∈ drawer.constructors := List.mem_cons_self
  exact ⟨k, hk, hlisted, hkeeps, hrejected, htrace cupboard _ [] hrejected, hmem, rfl, hconstructor,
    (hentries drawer hmem).2 rfl makeDrawer hconstructor⟩

end Shelf

end CallPlan
