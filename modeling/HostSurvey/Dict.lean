/-!
# Dictionaries with text keys

A dictionary is a list of keys with their values, in ascending order of the keys. Texts are
ordered by their code points, which is also the order of their UTF-8 bytes. Insertion keeps the
order and replaces the value of a key that is there already.
-/

namespace HostSurvey

/-- Keys with their values, in ascending order of the keys. -/
abbrev Dict (α : Type u) := List (String × α)

namespace Dict

variable {α : Type u}

def get? (d : Dict α) (key : String) : Option α := (d.find? (·.1 == key)).map (·.2)

/-- Gives a key a value, in place of the one it may have. -/
def insert (key : String) (value : α) : Dict α → Dict α
  | [] => [(key, value)]
  | (k, v) :: rest =>
    if key < k then (key, value) :: (k, v) :: rest
    else if key = k then (key, value) :: rest
    else (k, v) :: insert key value rest

/-- The dictionary of a list of keys and values, where a later value replaces an earlier one. -/
def ofList (entries : List (String × α)) : Dict α :=
  entries.foldl (fun d (key, value) => insert key value d) []

def keys (d : Dict α) : List String := d.map (·.1)

def contains (d : Dict α) (key : String) : Bool := (get? d key).isSome

/-- The texts of a list in ascending order and without repetitions. -/
def setOf (items : List String) : List String := keys (ofList (items.map (·, ())))

def Ordered (d : Dict α) : Prop := d.Pairwise fun a b => a.1 < b.1

/-! ## Looking up -/

@[simp] theorem get?_nil (key : String) : get? ([] : Dict α) key = none := rfl

@[simp] theorem get?_cons (k : String) (v : α) (rest : Dict α) (key : String) :
    get? ((k, v) :: rest) key = if k = key then some v else get? rest key := by
  unfold get?
  rw [List.find?_cons]
  by_cases h : k = key
  · simp [h]
  · simp [h, beq_false_of_ne h]

/-- An insertion is seen at its key and nowhere else. -/
theorem get?_insert (key : String) (value : α) (d : Dict α) (k : String) :
    get? (insert key value d) k = if key = k then some value else get? d k := by
  induction d with
  | nil => simp [insert]
  | cons e rest ih =>
    rcases e with ⟨a, b⟩
    rw [insert]
    split
    · simp
    · split
      · next h => subst h; simp only [get?_cons]; split <;> rfl
      · simp only [get?_cons, ih]
        split
        · next h1 h2 => subst h2; rw [if_neg h1]
        · rfl

theorem mem_keys_iff {d : Dict α} {key : String} : key ∈ keys d ↔ (get? d key).isSome := by
  induction d with
  | nil => simp [keys]
  | cons e rest ih =>
    rcases e with ⟨k, v⟩
    have hkeys : keys ((k, v) :: rest) = k :: keys rest := rfl
    rw [hkeys, List.mem_cons, ih, get?_cons]
    by_cases h : k = key
    · rw [if_pos h]
      simp [h]
    · rw [if_neg h]
      exact ⟨fun hk => hk.resolve_left (Ne.symm h), .inr⟩

theorem mem_of_get? {d : Dict α} {key : String} {value : α} (h : get? d key = some value) :
    (key, value) ∈ d := by
  induction d with
  | nil => cases h
  | cons e rest ih =>
    rcases e with ⟨k, v⟩
    rw [get?_cons] at h
    by_cases hk : k = key
    · rw [if_pos hk] at h
      cases h
      rw [hk]
      exact List.mem_cons_self
    · rw [if_neg hk] at h
      exact List.mem_cons_of_mem _ (ih h)

/-- A second insertion at a key undoes the first one. -/
theorem insert_insert (key : String) (v w : α) (d : Dict α) :
    insert key w (insert key v d) = insert key w d := by
  induction d with
  | nil => simp [insert]
  | cons e rest ih =>
    rcases e with ⟨a, b⟩
    by_cases hlt : key < a
    · simp [insert, hlt]
    · by_cases heq : key = a
      · simp [insert, heq]
      · have hstep (x : α) : insert key x ((a, b) :: rest) = (a, b) :: insert key x rest := by
          rw [insert, if_neg hlt, if_neg heq]
        rw [hstep v, insert, if_neg hlt, if_neg heq, ih, hstep w]

theorem insert_ne_nil (key : String) (value : α) (d : Dict α) : insert key value d ≠ [] := by
  intro h
  have hget := get?_insert key value d key
  rw [h, if_pos rfl] at hget
  cases hget

theorem get?_foldl_insert (entries : List (String × α)) (d : Dict α) (key : String) :
    get? (entries.foldl (fun d (key, value) => insert key value d) d) key =
      (get? (ofList entries) key).or (get? d key) := by
  induction entries generalizing d with
  | nil => simp [ofList]
  | cons e rest ih =>
    rcases e with ⟨k, v⟩
    have hempty : get? (ofList ((k, v) :: rest)) key =
        (get? (ofList rest) key).or (get? (insert k v []) key) := ih (insert k v [])
    rw [List.foldl_cons, ih, hempty, get?_insert, get?_insert]
    by_cases h : k = key
    · simp [h]
    · simp [h]

theorem get?_ofList_cons (k : String) (v : α) (rest : List (String × α)) (key : String) :
    get? (ofList ((k, v) :: rest)) key =
      (get? (ofList rest) key).or (if k = key then some v else none) := by
  have h := get?_foldl_insert rest (insert k v []) key
  rw [get?_insert, get?_nil] at h
  exact h

theorem mem_keys_ofList {entries : List (String × α)} {key : String} :
    key ∈ keys (ofList entries) ↔ key ∈ entries.map (·.1) := by
  rw [mem_keys_iff]
  induction entries with
  | nil => simp [ofList]
  | cons e rest ih =>
    rcases e with ⟨k, v⟩
    rw [get?_ofList_cons, Option.isSome_or, Bool.or_eq_true, ih, List.map_cons, List.mem_cons]
    by_cases h : k = key
    · simp [h]
    · simp [h, Ne.symm h]

theorem mem_setOf {items : List String} {item : String} : item ∈ setOf items ↔ item ∈ items := by
  unfold setOf
  rw [mem_keys_ofList, List.map_map]
  simp [Function.comp_def]

/-! ## Order -/

theorem lt_of_not_lt {a b : String} (h : ¬ a < b) (hne : a ≠ b) : b < a :=
  String.not_le.1 fun hab => hne (String.le_antisymm hab (String.not_lt.1 h))

theorem mem_insert {key : String} {value : α} {d : Dict α} {e : String × α}
    (h : e ∈ insert key value d) : e = (key, value) ∨ e ∈ d := by
  induction d with
  | nil => exact .inl (List.mem_singleton.1 h)
  | cons c rest ih =>
    rcases c with ⟨a, b⟩
    rw [insert] at h
    split at h
    · exact List.mem_cons.1 h
    · split at h
      · exact (List.mem_cons.1 h).imp_right (List.mem_cons_of_mem _)
      · rcases List.mem_cons.1 h with rfl | h
        · exact .inr List.mem_cons_self
        · exact (ih h).imp_right (List.mem_cons_of_mem _)

theorem mem_keys_insert {key : String} {value : α} {d : Dict α} {e : String × α}
    (h : e ∈ insert key value d) : e.1 = key ∨ e ∈ d :=
  (mem_insert h).imp_left (congrArg Prod.fst)

theorem Ordered.insert {d : Dict α} (h : d.Ordered) (key : String) (value : α) :
    Ordered (Dict.insert key value d) := by
  induction d with
  | nil => simp [Dict.insert, Ordered]
  | cons e rest ih =>
    rcases e with ⟨a, b⟩
    rcases List.pairwise_cons.1 h with ⟨h1, h2⟩
    rw [Dict.insert]
    split
    · next hlt =>
      refine List.pairwise_cons.2 ⟨fun c hc => ?_, h⟩
      rcases List.mem_cons.1 hc with rfl | hc
      · exact hlt
      · exact String.lt_trans hlt (h1 c hc)
    · next hnlt =>
      split
      · next heq => subst heq; exact List.pairwise_cons.2 ⟨h1, h2⟩
      · next hne =>
        refine List.pairwise_cons.2 ⟨fun c hc => ?_, ih h2⟩
        rcases mem_keys_insert hc with hk | hc
        · exact hk ▸ lt_of_not_lt hnlt hne
        · exact h1 c hc

theorem Ordered.foldl_insert {d : Dict α} (h : d.Ordered) (entries : List (String × α)) :
    Ordered (entries.foldl (fun d (key, value) => Dict.insert key value d) d) := by
  induction entries generalizing d with
  | nil => exact h
  | cons e rest ih => exact ih (h.insert e.1 e.2)

theorem ordered_ofList (entries : List (String × α)) : (ofList entries).Ordered :=
  Ordered.foldl_insert List.Pairwise.nil entries

/-! ## Insertions at two keys -/

theorem insert_of_lt {key k : String} (h : key < k) (value v : α) (rest : Dict α) :
    insert key value ((k, v) :: rest) = (key, value) :: (k, v) :: rest := by
  rw [insert, if_pos h]

theorem insert_of_eq (key : String) (value v : α) (rest : Dict α) :
    insert key value ((key, v) :: rest) = (key, value) :: rest := by
  rw [insert, if_neg (String.lt_irrefl key), if_pos rfl]

theorem insert_of_gt {key k : String} (h : k < key) (value v : α) (rest : Dict α) :
    insert key value ((k, v) :: rest) = (k, v) :: insert key value rest := by
  have hne : key ≠ k := by
    intro heq
    rw [heq] at h
    exact String.lt_irrefl k h
  rw [insert, if_neg (String.lt_asymm h), if_neg hne]

theorem insert_comm_of_lt {a b : String} (h : a < b) (v w : α) (d : Dict α) :
    insert a v (insert b w d) = insert b w (insert a v d) := by
  induction d with
  | nil =>
    show insert a v [(b, w)] = insert b w [(a, v)]
    rw [insert_of_lt h, insert_of_gt h]
    rfl
  | cons e rest ih =>
    rcases e with ⟨k, u⟩
    by_cases hbk : b < k
    · rw [insert_of_lt hbk, insert_of_lt h, insert_of_lt (String.lt_trans h hbk), insert_of_gt h,
        insert_of_lt hbk]
    by_cases heq : b = k
    · subst heq
      rw [insert_of_eq, insert_of_lt h, insert_of_lt h, insert_of_gt h, insert_of_eq]
    have hkb : k < b := lt_of_not_lt hbk heq
    rw [insert_of_gt hkb]
    -- the second key goes into the rest, whatever becomes of the first one
    by_cases hak : a < k
    · rw [insert_of_lt hak, insert_of_lt hak, insert_of_gt h, insert_of_gt hkb]
    by_cases heq : a = k
    · subst heq
      rw [insert_of_eq, insert_of_eq, insert_of_gt h]
    have hka : k < a := lt_of_not_lt hak heq
    rw [insert_of_gt hka, insert_of_gt hka, insert_of_gt hkb, ih]

/-- Insertions at two keys may change places. -/
theorem insert_comm {a b : String} (h : a ≠ b) (v w : α) (d : Dict α) :
    insert a v (insert b w d) = insert b w (insert a v d) := by
  by_cases hlt : a < b
  · exact insert_comm_of_lt hlt v w d
  · exact (insert_comm_of_lt (lt_of_not_lt hlt h) w v d).symm

end Dict

end HostSurvey
