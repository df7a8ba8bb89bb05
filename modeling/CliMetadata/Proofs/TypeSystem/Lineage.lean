import CliMetadata.Proofs.TypeSystem.Assignment
import Mathlib.Data.List.TakeWhile

/-!
# Where types come from

A chain of base types is cut where it comes back to a type or gets too long, and the closure of the
interfaces of a type where there are too many. As long as nothing gets too long the chain is what can be
reached by going from types to their base types, also in circles, and the closure is what can be reached
by going from interfaces to the interfaces that they declare.
-/

namespace CliMetadata

namespace View

variable {view : View} {type other base : TypeInfo}

/-! ## Base types -/

/-- Types are known by their handles. -/
lemma eq_of_type? {handle handle' : TypeHandle} (h : view.type? handle = some type)
    (h' : view.type? handle' = some other) (hsame : type.handle = other.handle) : type = other := by
  have hcanonical : view.canonical handle = view.canonical handle' := by
    rw [← handle_of_type? h, ← handle_of_type? h', hsame]
  have hkey := (Afresh.run_getType_eq_ok.mp (type?_eq_some.mp h)).2
  have hkey' := (Afresh.run_getType_eq_ok.mp (type?_eq_some.mp h')).2
  rw [hcanonical, hkey'] at hkey
  exact Member.type.inj (Except.ok.inj hkey.symm)

lemma eq_of_baseType? {next next' : TypeInfo} (h : view.baseType? type = some next)
    (h' : view.baseType? other = some next') (hsame : next.handle = next'.handle) : next = next' := by
  obtain ⟨handle, -, hhandle⟩ := Option.bind_eq_some_iff.mp h
  obtain ⟨handle', -, hhandle'⟩ := Option.bind_eq_some_iff.mp h'
  exact eq_of_type? hhandle hhandle' hsame

/-- What stands in a chain is the base type of something. -/
lemma exists_of_mem_chainFrom {length : Nat} {seen : List TypeInfo} {start? : Option TypeInfo}
    (hstart : ∀ start, start? = some start → ∃ derived, view.baseType? derived = some start)
    (hmem : other ∈ view.chainFrom length seen start?) :
    ∃ derived, view.baseType? derived = some other := by
  induction length generalizing seen start? with
  | zero => cases hmem
  | succ length ih =>
    cases start? with
    | none => cases hmem
    | some start =>
      rw [chainFrom] at hmem
      split at hmem
      · cases hmem
      · rcases List.mem_cons.mp hmem with rfl | hmem
        · exact hstart other rfl
        · exact ih (fun next hnext => ⟨start, hnext⟩) hmem

/-- From a chain that is not cut for its length, going on to base types leads back into it or to what
had been seen before. -/
lemma handle_mem_of_chainFrom {length : Nat} {seen : List TypeInfo} {start : TypeInfo}
    (hlength : (view.chainFrom length seen (some start)).length < length) :
    start.handle ∈ (seen ++ view.chainFrom length seen (some start)).map (·.handle) ∧
      ∀ type ∈ view.chainFrom length seen (some start), ∀ next, view.baseType? type = some next →
        next.handle ∈ (seen ++ view.chainFrom length seen (some start)).map (·.handle) := by
  induction length generalizing seen start with
  | zero => exact absurd hlength (Nat.not_lt_zero _)
  | succ length ih =>
    rw [chainFrom] at hlength ⊢
    -- The chain ends where it comes back to a type, or goes on with its base type.
    by_cases hseen : seen.contains start
    · rw [if_pos hseen]
      rw [List.contains_eq_any_beq] at hseen
      obtain ⟨known, hknown, hsame⟩ := List.any_eq_true.mp hseen
      have hsame : start.handle = known.handle := TypeInfo.beq_iff.mp hsame
      refine ⟨?_, List.forall_mem_nil _⟩
      rw [List.append_nil, hsame]
      exact List.mem_map_of_mem hknown
    · rw [if_neg hseen] at hlength ⊢
      refine ⟨by simp, fun type htype next hnext => ?_⟩
      cases hbase : view.baseType? start with
      | none =>
        rw [hbase] at htype
        have hend : view.chainFrom length (start :: seen) none = [] := by cases length <;> rfl
        rw [hend, List.mem_singleton] at htype
        rw [htype, hbase] at hnext
        cases hnext
      | some base =>
        rw [hbase] at hlength htype
        obtain ⟨hfirst, hothers⟩ := ih (Nat.lt_of_succ_lt_succ hlength)
        have hgoOn : next.handle ∈ (start :: seen ++
            view.chainFrom length (start :: seen) (some base)).map (·.handle) := by
          rcases List.mem_cons.mp htype with rfl | htype
          · obtain rfl := Option.some.inj (hbase.symm.trans hnext)
            exact hfirst
          · exact hothers type htype next hnext
        simp only [List.cons_append, List.map_cons, List.map_append, List.mem_cons,
          List.mem_append] at hgoOn ⊢
        tauto

/-- A chain that is not cut for its length is closed under base types. -/
lemma mem_baseChain_of_baseType? (hlength : (view.baseChain type).length < maxChainLength)
    {next : TypeInfo} (hother : other = type ∨ other ∈ view.baseChain type)
    (hnext : view.baseType? other = some next) : next ∈ view.baseChain type := by
  have hhandle : next.handle ∈ (view.baseChain type).map (·.handle) := by
    rw [baseChain] at hlength hother ⊢
    cases hbase : view.baseType? type with
    | none =>
      rw [hbase] at hother
      rcases hother with rfl | hmem
      · exact nomatch hnext.symm.trans hbase
      · exact nomatch hmem
    | some start =>
      rw [hbase] at hlength hother
      obtain ⟨hfirst, hothers⟩ := handle_mem_of_chainFrom hlength
      rcases hother with rfl | hmem
      · obtain rfl := Option.some.inj (hbase.symm.trans hnext)
        exact hfirst
      · exact hothers other hmem next hnext
  -- Base types are loaded, so that those with the same handle are the same.
  obtain ⟨known, hknown, hsame⟩ := List.mem_map.mp hhandle
  obtain ⟨derived, hderived⟩ :=
    exists_of_mem_chainFrom (fun start hstart => ⟨type, hstart⟩) hknown
  exact eq_of_baseType? hderived hnext hsame ▸ hknown

/-- The chain of a base type is part of the chain, unless that is cut for its length. -/
lemma baseChain_subset (hlength : (view.baseChain type).length < maxChainLength)
    (hother : other ∈ view.baseChain type) : view.baseChain other ⊆ view.baseChain type := by
  -- Each step of the other chain starts in this one.
  suffices hfrom : ∀ length seen start?, (∀ start, start? = some start → start ∈ view.baseChain type) →
      view.chainFrom length seen start? ⊆ view.baseChain type from
    hfrom _ _ _ fun start hstart => mem_baseChain_of_baseType? hlength (.inr hother) hstart
  intro length
  induction length with
  | zero => exact fun _ _ _ => List.nil_subset _
  | succ length ih =>
    intro seen start? hstart
    cases start? with
    | none => exact List.nil_subset _
    | some start =>
      rw [chainFrom]
      split
      · exact List.nil_subset _
      · refine List.cons_subset.mpr ⟨hstart start rfl, ih _ _ fun next hnext => ?_⟩
        exact mem_baseChain_of_baseType? hlength (.inr (hstart start rfl)) hnext

/-! ## Interfaces -/

/-- Interfaces that can be reached from some by going from interfaces to those that they declare. -/
inductive Reaches (view : View) (pending : List TypeHandle) : TypeHandle → Prop where
  | here {handle : TypeHandle} : handle ∈ pending → Reaches view pending handle
  | declared {handle other : TypeHandle} :
      Reaches view pending handle → other ∈ view.declared handle → Reaches view pending other

lemma Reaches.trans {pending others : List TypeHandle} {handle : TypeHandle}
    (h : view.Reaches others handle) (hothers : ∀ other ∈ others, view.Reaches pending other) :
    view.Reaches pending handle := by
  induction h with
  | here hmem => exact hothers _ hmem
  | declared _ hdeclared ih => exact .declared ih hdeclared

/-- What is closed under declarations holds all that is reached from it. -/
lemma Reaches.mem_of_closed {pending all : List TypeHandle} {handle : TypeHandle}
    (h : view.Reaches pending handle) (hpending : ∀ handle ∈ pending, handle ∈ all)
    (hall : ∀ handle ∈ all, ∀ other ∈ view.declared handle, other ∈ all) : handle ∈ all := by
  induction h with
  | here hmem => exact hpending _ hmem
  | declared _ hdeclared ih => exact hall _ ih _ hdeclared

/-- From nothing, nothing is reached. -/
lemma not_reaches_nil (handle : TypeHandle) : ¬ view.Reaches [] handle := by
  intro h
  induction h with
  | here hmem => exact nomatch hmem
  | declared _ _ ih => exact ih

section

variable {start closure pending others : List TypeHandle} {first : TypeHandle}

/-- The handle that comes into a closure next is the first pending one that is not in it. -/
lemma not_mem_of_dropWhile (hleft : pending.dropWhile (closure.contains ·) = first :: others) :
    first ∉ closure := by
  intro hmem
  have hhead := List.head?_dropWhile_not (closure.contains ·) pending
  rw [hleft, List.head?_cons] at hhead
  simp [hmem] at hhead

/-- Those before it are in the closure. -/
lemma mem_of_dropWhile (hleft : pending.dropWhile (closure.contains ·) = first :: others)
    {handle : TypeHandle} (hmem : handle ∈ pending) :
    handle ∈ closure ++ [first] ∨ handle ∈ others := by
  rw [← List.takeWhile_append_dropWhile (p := (closure.contains ·)) (l := pending), hleft] at hmem
  rcases List.mem_append.mp hmem with hmem | hmem
  · exact .inl (List.mem_append_left _ (List.contains_iff_mem.mp (List.mem_takeWhile_imp hmem)))
  · rcases List.mem_cons.mp hmem with rfl | hmem
    · exact .inl (List.mem_append_right _ (List.mem_singleton_self handle))
    · exact .inr hmem

lemma nodup_of_dropWhile (hnodup : closure.Nodup)
    (hleft : pending.dropWhile (closure.contains ·) = first :: others) : (closure ++ [first]).Nodup :=
  (List.perm_append_singleton first closure).nodup_iff.mpr
    (List.nodup_cons.mpr ⟨not_mem_of_dropWhile hleft, hnodup⟩)

/-- While a closure grows, it holds handles that can be reached, each once, and what they declare is in it
or pending. -/
structure Closing (view : View) (start closure pending : List TypeHandle) : Prop where
  nodup : closure.Nodup
  held : ∀ handle ∈ closure, view.Reaches start handle
  awaited : ∀ handle ∈ pending, view.Reaches start handle
  declared : ∀ handle ∈ closure, ∀ other ∈ view.declared handle, other ∈ closure ∨ other ∈ pending

/-- A closure begins with nothing in it. -/
lemma Closing.nil (start : List TypeHandle) : view.Closing start [] start where
  nodup := List.nodup_nil
  held := List.forall_mem_nil _
  awaited _ := .here
  declared := List.forall_mem_nil _

/-- The next handle comes into the closure, and what it declares is pending. -/
lemma Closing.step (h : view.Closing start closure pending)
    (hleft : pending.dropWhile (closure.contains ·) = first :: others) :
    view.Closing start (closure ++ [first]) (view.declared first ++ others) := by
  -- What is dropped is in the closure already, and so only the rest has to be reached.
  have hpending (handle : TypeHandle) (hmem : handle ∈ first :: others) : view.Reaches start handle :=
    h.awaited handle ((List.dropWhile_sublist _).subset (hleft ▸ hmem))
  have hfirst := hpending first List.mem_cons_self
  refine ⟨nodup_of_dropWhile h.nodup hleft, fun handle hmem => ?_, fun handle hmem => ?_,
    fun handle hmem other hother => ?_⟩
  · rcases List.mem_append.mp hmem with hmem | hmem
    · exact h.held handle hmem
    · exact List.mem_singleton.mp hmem ▸ hfirst
  · rcases List.mem_append.mp hmem with hmem | hmem
    · exact .declared hfirst hmem
    · exact hpending handle (List.mem_cons_of_mem first hmem)
  · rcases List.mem_append.mp hmem with hmem | hmem
    · rcases h.declared handle hmem other hother with hother | hother
      · exact .inl (List.mem_append_left _ hother)
      · exact (mem_of_dropWhile hleft hother).imp_right (List.mem_append_right _)
    · obtain rfl := List.mem_singleton.mp hmem
      exact .inr (List.mem_append_left _ hother)

/-- Nothing comes into a closure but what can be reached. -/
lemma Closing.reaches {room : Nat} (h : view.Closing start closure pending) :
    ∀ handle ∈ view.closeInterfaces room closure pending, view.Reaches start handle := by
  induction room generalizing closure pending with
  | zero =>
    rw [closeInterfaces]
    exact h.held
  | succ room ih =>
    rw [closeInterfaces]
    split
    · exact h.held
    · rename_i hleft
      exact ih (h.step hleft)

/-- If all that is pending is in the closure, the closure is closed under declarations. -/
lemma Closing.settled (h : view.Closing start closure pending)
    (hfull : ∀ handle ∈ pending, handle ∈ closure) :
    (∀ handle, handle ∈ closure ∨ handle ∈ pending → handle ∈ closure) ∧
      ∀ handle ∈ closure, ∀ other ∈ view.declared handle, other ∈ closure :=
  ⟨fun handle hmem => hmem.elim id (hfull handle),
    fun handle hmem other hother => (h.declared handle hmem other hother).elim id (hfull other)⟩

/-- As long as there is room for all that can be reached, a closure comes to hold what was pending and
what its interfaces declare. -/
lemma Closing.closed {room : Nat} (h : view.Closing start closure pending)
    (hroom : ∀ handles : List TypeHandle, handles.Nodup →
      (∀ handle ∈ handles, view.Reaches start handle) → handles.length ≤ closure.length + room) :
    (∀ handle, handle ∈ closure ∨ handle ∈ pending →
      handle ∈ view.closeInterfaces room closure pending) ∧
      ∀ handle ∈ view.closeInterfaces room closure pending, ∀ other ∈ view.declared handle,
        other ∈ view.closeInterfaces room closure pending := by
  induction room generalizing closure pending with
  | zero =>
    rw [closeInterfaces]
    refine h.settled fun handle hmem => ?_
    -- A handle that is still missing would be one more than there is room for.
    by_contra hnew
    have hmore := hroom (handle :: closure) (List.nodup_cons.mpr ⟨hnew, h.nodup⟩)
      (List.forall_mem_cons.mpr ⟨h.awaited handle hmem, h.held⟩)
    rw [List.length_cons] at hmore
    omega
  | succ room ih =>
    rw [closeInterfaces]
    cases hleft : pending.dropWhile (closure.contains ·) with
    | nil =>
      exact h.settled fun handle hmem =>
        List.contains_iff_mem.mp (List.dropWhile_eq_nil_iff.mp hleft handle hmem)
    | cons first others =>
      -- The next handle takes one place of the room.
      obtain ⟨hall, hclosed⟩ := ih (h.step hleft) fun handles hdistinct hhandles => by
        have hmore := hroom handles hdistinct hhandles
        rw [List.length_append, List.length_singleton]
        omega
      refine ⟨fun handle hmem => hall handle ?_, hclosed⟩
      rcases hmem with hmem | hmem
      · exact .inl (List.mem_append_left _ hmem)
      · exact (mem_of_dropWhile hleft hmem).imp_right (List.mem_append_right _)

end

/-- A type that reaches no more interfaces than fit into the closure implements all that it reaches. -/
lemma mem_implementedHandles_iff
    (hroom : ∀ handles : List TypeHandle, handles.Nodup →
      (∀ handle ∈ handles, view.Reaches (view.declaredAlong type) handle) →
        handles.length ≤ maxChainLength)
    {handle : TypeHandle} :
    handle ∈ view.implementedHandles type ↔ view.Reaches (view.declaredAlong type) handle := by
  obtain ⟨hall, hclosed⟩ := (Closing.nil (view.declaredAlong type)).closed (by simpa using hroom)
  constructor
  · exact (Closing.nil (view.declaredAlong type)).reaches handle
  · exact fun hreached => hreached.mem_of_closed (fun handle hmem => hall handle (.inr hmem)) hclosed

end View

end CliMetadata
