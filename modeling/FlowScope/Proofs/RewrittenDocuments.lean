import FlowScope.Proofs.ReadBack
import FlowScope.Proofs.TidyWorkflows
import Mathlib.Logic.Function.Basic
/-!
Documents that differ in one text. A path leads to the text, from the root through fields of records
and items of lists. A decoder follows the path when it makes one part of its value of the text, and the
rest without it: then it takes any other text there, and only that part changes.
-/
namespace FlowScope.Json

/-- A step down into a document. -/
inductive Step where
  /-- To an item of a list. -/
  | item (i : Nat)
  /-- To a field of a record, which has certain keys and a number among the fields. -/
  | field (keys : List String) (i : Nat)
deriving DecidableEq, Repr

/-- The step to a field of a record. -/
def Layout.step {F : Type} [DecidableEq F] (l : Layout F) (f : F) : Step :=
  .field (l.key f :: l.aliases f) (l.fields.idxOf f)

/-- Two documents that are the same but for the text at the end of a path. A record may be an object
or an array of its fields. -/
inductive Rewritten (old new : String) : List Step → Json → Json → Prop
  | here : Rewritten old new [] (text old) (text new)
  | item {path : List Step} {j j' : Json} {stop : Option Fault} (before after : List Json)
      (h : Rewritten old new path j j') :
      Rewritten old new (.item before.length :: path) (.arr (before ++ j :: after) stop)
        (.arr (before ++ j' :: after) stop)
  | member {path : List Step} {j j' : Json} {stop : Option Fault} {keys : List String} {i : Nat}
      {key : String} (before after : List (Quoted × Json)) (hkey : key ∈ keys)
      (h : Rewritten old new path j j') :
      Rewritten old new (.field keys i :: path) (.obj (before ++ (.text key, j) :: after) stop)
        (.obj (before ++ (.text key, j') :: after) stop)
  | entry {path : List Step} {j j' : Json} {stop : Option Fault} {keys : List String}
      (before after : List Json) (h : Rewritten old new path j j') :
      Rewritten old new (.field keys before.length :: path) (.arr (before ++ j :: after) stop)
        (.arr (before ++ j' :: after) stop)

theorem Rewritten.ne_null {old new : String} {path : List Step} {j j' : Json}
    (h : Rewritten old new path j j') : j ≠ .null ∧ j' ≠ .null := by
  cases h <;> simp [text]

theorem orElse_of_ne_null {α : Type} {ifNull : α} {read : Decoder α} {depth : Nat} {j : Json}
    (h : j ≠ .null) : orElse ifNull read depth j = read depth j := by
  cases j with
  | null => exact absurd rfl h
  | _ => rfl

/-- The decoder makes one part of its value of the text at the end of a path. With another text there,
it makes the same value but for that part. -/
def Follows {α β : Type} (read : Decoder α) (path : List Step) (of : String → β) (get? : α → Option β)
    (put : α → β → α) : Prop :=
  ∀ ⦃old new : String⦄ ⦃j j' : Json⦄, Rewritten old new path j j' → ∀ ⦃depth : Nat⦄ ⦃a : α⦄,
    read depth j = .ok a → get? a = some (of old) ∧ read depth j' = .ok (put a (of new))

section Decoders

variable {α β γ : Type} {read : Decoder α} {path : List Step} {of : String → β} {get? : α → Option β}
  {put : α → β → α}

theorem Follows.orElse (h : Follows read path of get? put) (ifNull : α) :
    Follows (orElse ifNull read) path of get? put := by
  intro old new j j' hj depth a ha
  rw [orElse_of_ne_null hj.ne_null.1] at ha
  rw [orElse_of_ne_null hj.ne_null.2]
  exact h hj ha

theorem Follows.map (h : Follows read path of get? put) {f : α → γ} {get?' : γ → Option β}
    {put' : γ → β → γ} (hget : ∀ a, get?' (f a) = get? a) (hput : ∀ a b, put' (f a) b = f (put a b)) :
    Follows (fun depth j => (read depth j).map f) path of get?' put' := by
  intro old new j j' hj depth c hc
  obtain ⟨a, ha, rfl⟩ := exists_of_map_eq_ok hc
  obtain ⟨hold, hnew⟩ := h hj ha
  refine ⟨(hget a).trans hold, ?_⟩
  simp only [hnew, Except.map, hput]

theorem Follows.option (h : Follows read path of get? put) :
    Follows (readOption read) path of (·.bind get?) fun a? b => a?.map (put · b) :=
  Follows.orElse (h.map (f := some) (fun _ => rfl) fun _ _ => rfl) none

theorem Follows.mapM (h : Follows read path of get? put) {old new : String} {j j' : Json}
    (hj : Rewritten old new path j j') {depth : Nat} {before after : List Json} {as : List α}
    (has : (before ++ j :: after).mapM (read depth) = .ok as) :
    as[before.length]?.bind get? = some (of old) ∧
      (before ++ j' :: after).mapM (read depth) =
        .ok (as.modify before.length (put · (of new))) := by
  induction before generalizing as with
  | nil =>
      rw [List.nil_append, List.mapM_cons] at has
      obtain ⟨a, ha, has⟩ := exists_of_bind_eq_ok has
      obtain ⟨rest, hrest, has⟩ := exists_of_bind_eq_ok has
      obtain rfl : a :: rest = as := Except.ok.inj has
      obtain ⟨hold, hnew⟩ := h hj ha
      refine ⟨hold, ?_⟩
      rw [List.nil_append, List.mapM_cons, hnew, hrest]
      rfl
  | cons item before ih =>
      rw [List.cons_append, List.mapM_cons] at has
      obtain ⟨a, ha, has⟩ := exists_of_bind_eq_ok has
      obtain ⟨rest, hrest, has⟩ := exists_of_bind_eq_ok has
      obtain rfl : a :: rest = as := Except.ok.inj has
      obtain ⟨hold, hnew⟩ := ih hrest
      refine ⟨hold, ?_⟩
      rw [List.cons_append, List.mapM_cons, ha, hnew]
      rfl

theorem Follows.list (h : Follows read path of get? put) (i : Nat) :
    Follows (readList read) (.item i :: path) of (fun as => as[i]?.bind get?)
      fun as b => as.modify i (put · b) := by
  intro old new j j' hj depth as has
  cases hj with
  | item before after hj =>
      obtain ⟨below, hbelow, has⟩ := exists_of_bind_eq_ok has
      obtain ⟨bs, hbs, has⟩ := exists_of_bind_eq_ok has
      obtain ⟨⟨⟩, hended, has⟩ := exists_of_bind_eq_ok has
      obtain rfl : bs = as := Except.ok.inj has
      obtain ⟨hold, hnew⟩ := h.mapM hj hbs
      refine ⟨hold, ?_⟩
      rw [readList, hbelow]
      simp only [bind, Except.bind, hnew, hended]
      rfl

/-- A list that may be `null`. -/
theorem Follows.many (h : Follows read path of get? put) (i : Nat) :
    Follows (Json.orElse [] (readList read)) (.item i :: path) of (fun as => as[i]?.bind get?)
      fun as b => as.modify i (put · b) :=
  (h.list i).orElse []

end Decoders

namespace Schema

variable {F : Type} [DecidableEq F] {V : F → Type} {s : Schema F V} {f : F}

theorem put_put (d : Draft V) (x y : V f) : put (put d f x) f y = put d f y := by
  funext g
  by_cases hg : g = f
  · subst hg
    rw [put_self, put_self]
  · rw [put_of_ne _ _ hg, put_of_ne _ _ hg, put_of_ne _ _ hg]

theorem put_comm (d : Draft V) {g : F} (h : g ≠ f) (x : V f) (y : V g) :
    put (put d f x) g y = put (put d g y) f x := by
  funext k
  by_cases hkg : k = g
  · subst hkg
    rw [put_self, put_of_ne _ _ h, put_self]
  · by_cases hkf : k = f
    · subst hkf
      rw [put_of_ne _ _ hkg, put_self, put_self]
    · rw [put_of_ne _ _ hkg, put_of_ne _ _ hkf, put_of_ne _ _ hkf, put_of_ne _ _ hkg]

/-- What a field that has been read holds does not matter to the members after it. -/
theorem readMembers_put {depth : Nat} {members : List (Quoted × Json)} {d d' : Draft V}
    (hf : (d f).isSome = true) (h : s.readMembers depth members d = .ok d') (x : V f) :
    d' f = d f ∧ s.readMembers depth members (put d f x) = .ok (put d' f x) := by
  induction members generalizing d with
  | nil =>
      obtain rfl : d = d' := Except.ok.inj h
      exact ⟨rfl, rfl⟩
  | cons m rest ih =>
      obtain ⟨q, j⟩ := m
      cases q with
      | faulty fault skipped => simp [readMembers] at h
      | text key =>
          rw [readMembers] at h ⊢
          cases hfield : s.field? key with
          | none =>
              simp only [hfield] at h ⊢
              cases hskip : j.skipFault? with
              | some fault => simp [hskip] at h
              | none =>
                  simp only [hskip] at h ⊢
                  exact ih hf h
          | some g =>
              simp only [hfield] at h ⊢
              by_cases hg : (d g).isSome = true
              · simp [hg] at h
              · have hgf : g ≠ f := by
                  rintro rfl
                  exact hg hf
                rw [if_neg hg] at h
                rw [put_of_ne _ _ hgf, if_neg hg]
                cases hread : s.read g depth j with
                | error e => simp [hread] at h
                | ok y =>
                    simp only [hread] at h ⊢
                    have hkept : put d g y f = d f := put_of_ne _ _ hgf.symm
                    rw [put_comm d hgf, ← hkept]
                    exact ih (hkept ▸ hf) h

theorem readItems_put {depth n : Nat} {stop : Option Fault} {fields : List F} {items : List Json}
    {d d' : Draft V} (hf : f ∉ fields) (h : s.readItems depth stop n fields items d = .ok d')
    (x : V f) :
    d' f = d f ∧ s.readItems depth stop n fields items (put d f x) = .ok (put d' f x) := by
  induction fields generalizing n items d with
  | nil =>
      cases items with
      | nil =>
          obtain ⟨⟨⟩, hended, rfl⟩ := exists_of_map_eq_ok h
          refine ⟨rfl, ?_⟩
          rw [readItems, hended]
          rfl
      | cons item rest => simp [readItems] at h
  | cons g fields ih =>
      obtain ⟨hgf, hrest⟩ : g ≠ f ∧ f ∉ fields := by
        rw [List.mem_cons, not_or] at hf
        exact ⟨Ne.symm hf.1, hf.2⟩
      cases items with
      | nil =>
          cases stop with
          | some fault => simp [readItems] at h
          | none =>
              rw [readItems] at h ⊢
              by_cases hneeded : s.neededInArray g = true
              · simp [hneeded] at h
              · simp only [hneeded] at h ⊢
                exact ih hrest h
      | cons item rest =>
          rw [readItems] at h ⊢
          cases hread : s.read g depth item with
          | error e => simp [hread] at h
          | ok y =>
              simp only [hread] at h ⊢
              have hkept : put d g y f = d f := put_of_ne _ _ hgf.symm
              rw [put_comm d hgf, ← hkept]
              exact ih hrest h

variable {β : Type} {path : List Step} {of : String → β} {get? : V f → Option β}
  {put' : V f → β → V f} {old new : String} {j j' : Json} {depth : Nat}

/-- The draft has what is made of the old text in the field, and the other one what is made of the
new. -/
def Retold (of : String → β) (get? : V f → Option β) (put' : V f → β → V f) (old new : String)
    (d d' : Draft V) : Prop :=
  ∃ x, d f = some x ∧ get? x = some (of old) ∧ d' = put d f (put' x (of new))

theorem retold_readMembers (h : Follows (s.read f) path of get? put')
    (hj : Rewritten old new path j j') {key : String} (hkey : s.field? key = some f)
    {before after : List (Quoted × Json)} {d d₁ : Draft V}
    (hd : s.readMembers depth (before ++ (.text key, j) :: after) d = .ok d₁) :
    ∃ d₂, s.readMembers depth (before ++ (.text key, j') :: after) d = .ok d₂ ∧
      Retold of get? put' old new d₁ d₂ := by
  induction before generalizing d with
  | nil =>
      rw [List.nil_append, readMembers] at hd ⊢
      simp only [hkey] at hd ⊢
      by_cases hf : (d f).isSome = true
      · simp [hf] at hd
      · rw [if_neg hf] at hd ⊢
        cases hread : s.read f depth j with
        | error e => simp [hread] at hd
        | ok x =>
            simp only [hread] at hd
            obtain ⟨hold, hnew⟩ := h hj hread
            obtain ⟨hkept, hafter⟩ :=
              readMembers_put (f := f) (by rw [put_self]; rfl) hd (put' x (of new))
            rw [put_put] at hafter
            simp only [hnew]
            exact ⟨_, hafter, x, hkept.trans (put_self d f x), hold, rfl⟩
  | cons m before ih =>
      obtain ⟨q, item⟩ := m
      cases q with
      | faulty fault skipped => simp [readMembers] at hd
      | text other =>
          rw [List.cons_append, readMembers] at hd ⊢
          cases hfield : s.field? other with
          | none =>
              simp only [hfield] at hd ⊢
              cases hskip : item.skipFault? with
              | some fault => simp [hskip] at hd
              | none =>
                  simp only [hskip] at hd ⊢
                  exact ih hd
          | some g =>
              simp only [hfield] at hd ⊢
              by_cases hg : (d g).isSome = true
              · simp [hg] at hd
              · rw [if_neg hg] at hd ⊢
                cases hread : s.read g depth item with
                | error e => simp [hread] at hd
                | ok y =>
                    simp only [hread] at hd ⊢
                    exact ih hd

theorem retold_readItems (h : Follows (s.read f) path of get? put')
    (hj : Rewritten old new path j j') {n : Nat} {stop : Option Fault} {fields : List F}
    (hnodup : fields.Nodup) {before after : List Json} (hf : fields[before.length]? = some f)
    {d d₁ : Draft V} (hd : s.readItems depth stop n fields (before ++ j :: after) d = .ok d₁) :
    ∃ d₂, s.readItems depth stop n fields (before ++ j' :: after) d = .ok d₂ ∧
      Retold of get? put' old new d₁ d₂ := by
  induction before generalizing n fields d with
  | nil =>
      obtain ⟨rest, rfl⟩ : ∃ rest, fields = f :: rest := by
        cases fields with
        | nil => simp at hf
        | cons g rest => exact ⟨rest, by simpa using hf⟩
      rw [List.nil_append, readItems] at hd ⊢
      cases hread : s.read f depth j with
      | error e => simp [hread] at hd
      | ok x =>
          simp only [hread] at hd
          obtain ⟨hold, hnew⟩ := h hj hread
          obtain ⟨hkept, hafter⟩ :=
            readItems_put (List.nodup_cons.mp hnodup).1 hd (put' x (of new))
          rw [put_put] at hafter
          simp only [hnew]
          exact ⟨_, hafter, x, hkept.trans (put_self d f x), hold, rfl⟩
  | cons item before ih =>
      cases fields with
      | nil => simp at hf
      | cons g fields =>
          rw [List.cons_append, readItems] at hd ⊢
          cases hread : s.read g depth item with
          | error e => simp [hread] at hd
          | ok y =>
              simp only [hread] at hd ⊢
              exact ih (List.nodup_cons.mp hnodup).2 (by simpa using hf) hd

theorem Retold.isNone_eq {d d' : Draft V} (h : Retold of get? put' old new d d') (g : F) :
    (d' g).isNone = (d g).isNone := by
  obtain ⟨x, hx, -, rfl⟩ := h
  by_cases hg : g = f
  · subst hg
    rw [put_self, hx]
    rfl
  · rw [put_of_ne _ _ hg]

/-- What the fields come to, with what stands for those that are missing. -/
theorem Retold.values {d d' : Draft V} (h : Retold of get? put' old new d d')
    {v : (g : F) → V g} (hv : (fun g => (d g).getD (s.empty g)) = v) :
    get? (v f) = some (of old) ∧
      (fun g => (d' g).getD (s.empty g)) = Function.update v f (put' (v f) (of new)) := by
  obtain ⟨x, hx, hold, rfl⟩ := h
  have hvf : v f = x := by
    rw [← hv]
    simp [hx]
  refine ⟨hvf ▸ hold, ?_⟩
  funext g
  by_cases hg : g = f
  · subst hg
    rw [put_self, Function.update_self, hvf]
    rfl
  · rw [put_of_ne _ _ hg, Function.update_of_ne hg, ← hv]

/-- A record follows a path through a field when the field follows the rest of the path. -/
theorem follows_field (hl : s.Lawful) (haliases : ∀ key ∈ s.aliases f, s.field? key = some f)
    (h : Follows (s.read f) path of get? put') :
    Follows s.readFields (s.step f :: path) of (fun v => get? (v f))
      fun v b => Function.update v f (put' (v f) b) := by
  intro old new j j' hj depth v hv
  rw [Layout.step] at hj
  generalize hi : s.fields.idxOf f = i at hj
  cases hj with
  | member before after hkey hj =>
      have hfield := (List.forall_mem_cons (p := (s.field? · = some f))).mpr
        ⟨hl.field?_key f, haliases⟩ _ hkey
      obtain ⟨below, hbelow, hv⟩ := exists_of_bind_eq_ok hv
      obtain ⟨d₁, hd₁, hv⟩ := exists_of_bind_eq_ok hv
      obtain ⟨⟨⟩, hended, hv⟩ := exists_of_bind_eq_ok hv
      obtain ⟨d₂, hd₂, hretold⟩ := retold_readMembers h hj hfield hd₁
      cases hfind : s.fields.find? fun g => (d₁ g).isNone && s.neededInObject g with
      | some g => simp [hfind] at hv
      | none =>
          simp only [hfind] at hv
          obtain ⟨hold, hvalues⟩ := hretold.values (Except.ok.inj hv)
          refine ⟨hold, ?_⟩
          simp only [readFields, hbelow, hd₂, hended, hretold.isNone_eq, hfind, hvalues, bind,
            Except.bind, pure, Except.pure]
  | entry before after hj =>
      obtain ⟨below, hbelow, hv⟩ := exists_of_bind_eq_ok hv
      obtain ⟨d₁, hd₁, hv⟩ := exists_of_bind_eq_ok hv
      have hf := List.getElem?_idxOf (hl.mem_fields f)
      rw [hi] at hf
      obtain ⟨d₂, hd₂, hretold⟩ := retold_readItems h hj hl.nodup hf hd₁
      obtain ⟨hold, hvalues⟩ := hretold.values (Except.ok.inj hv)
      refine ⟨hold, ?_⟩
      simp only [readFields, hbelow, hd₂, hvalues, bind, Except.bind, pure, Except.pure]

end Schema

end FlowScope.Json
