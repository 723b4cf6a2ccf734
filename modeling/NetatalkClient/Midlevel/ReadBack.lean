import NetatalkClient.Midlevel.Getxattr
/-!
# Midlevel: an attribute that was set reads back

`ml_setxattr`, then `ml_getxattr`. The FinderInfo and the resource fork
have rules of their own: 32 zeros count as no FinderInfo, an empty
resource fork as none, and a value that is shorter than the resource fork
leaves the rest of it behind.
-/

namespace NetatalkClient

open Volume AfpCalls Client Octets AttributeServer List

/-! ## Setting, then getting -/

/-- A value for the resource fork that reads back: it is not empty, and
covers what was there before. -/
structure ResourceFits (cfg : MidlevelConfig) (volume : MetadataVolume) (m : Attributes)
    (value : Octets) : Prop where
  some : value ≠ []
  covers : m.resource.length ≤ value.length
  quantum : volume.rxQuantum ≠ 0
  owner : cfg.translateUidgidToClient m.owner.1 m.owner.2 ≠ none

/-- What is asked of a value, for the two names with rules of their own. -/
structure ReadsBack (t : Catalog) (cache : Volume) (cfg : MidlevelConfig)
    (volume : MetadataVolume) (host : ByteOrder) (path name value : Octets)
    (store : ℕ → Attributes) : Prop where
  resource : isResourceforkXattr name = true → ∀ did basename o,
    t.special cache volume host path = some (did, basename) → t.object did basename = some o →
      ResourceFits cfg volume (store o.fileid) value
  finderinfo : isFinderinfoXattr name = true → value ≠ replicate 32 0

section ReadBack

variable {server : AttributeServer} {cfg : MidlevelConfig} {volume : MetadataVolume}
variable {host : ByteOrder} {cache : Volume} {path converted name value : Octets}
variable {store : ℕ → Attributes} {c : Client AttributeState} {o : Object}

theorem not_isFinderinfoXattr (h : isResourceforkXattr name = true) :
    isFinderinfoXattr name = false := by
  unfold isResourceforkXattr at h
  unfold isFinderinfoXattr
  rw [of_decide_eq_true h]
  decide

/-- What was set of the resource fork reads back exactly if the value fits. -/
theorem resource_reads_back_iff {b : Octets}
    (hcache : cache.Correct server.tree) (hpath : path.head? = some slash)
    (hvalue : value.length ≤ afpExtattrDataMax)
    (hset : ResourceSet server.tree cache volume host path value store o b c) :
    (∀ size, 0 < size → value.length ≤ size →
      (((server.willing.calls (cfg.on volume host) path converted).mlGetresourcefork
        volume host path true size 0).run c).1 = ((value.length : ℤ), value)) ↔
      ResourceFits cfg volume (store o.fileid) value := by
  obtain ⟨did, basename, hspecial, ho⟩ := hset.object
  obtain ⟨m, hm⟩ : ∃ m, m = { store o.fileid with resource := b } := ⟨_, rfl⟩
  have hholds : StoreHas server.tree (fun store' => store' o.fileid = m) c := by
    have hstore : c.server.store o.fileid = m := by rw [hset.holds.2, withResource_self, hm]
    exact ⟨hset.holds.1, hstore⟩
  have hget : ∀ size, 0 < size → min size m.resource.length ≤ intMax →
      (ForkReadable cfg volume m → (((server.willing.calls (cfg.on volume host) path
        converted).mlGetresourcefork volume host path true size 0).run c).1 =
          (((min size m.resource.length : ℕ) : ℤ), m.resource.take size)) ∧
      (¬ForkReadable cfg volume m → (((server.willing.calls (cfg.on volume host) path
        converted).mlGetresourcefork volume host path true size 0).run c).1.1 < 0) :=
    fun size hpos hsmall => get_resourcefork hcache hpath hspecial ho hset.file hpos hsmall c hholds
  have hmax : afpExtattrDataMax + 1 ≤ intMax := by decide
  have hcontents : m.resource = b := by rw [hm]
  constructor
  · intro h
    -- a buffer with room for one octet more shows a longer fork
    obtain ⟨hread, hunread⟩ := hget (value.length + 1) (Nat.succ_pos _)
      ((min_le_left _ _).trans (by omega))
    have hback := h (value.length + 1) (Nat.succ_pos _) (Nat.le_succ _)
    by_cases hreadable : ForkReadable cfg volume m
    · have hlen := congrArg Prod.fst (hback.symm.trans (hread hreadable))
      have hfork : m.resource.length = value.length := by
        dsimp only at hlen
        omega
      have hsome : value ≠ [] := by
        rintro rfl
        exact hreadable.some (length_eq_zero_iff.mp hfork)
      refine ⟨hsome, ?_, hreadable.quantum, ?_⟩
      · rw [hcontents, hset.contents hsome, length_overwrite] at hfork
        omega
      · have howner := hreadable.owner
        rwa [hm] at howner
    · rw [hback] at hunread
      exact absurd (hunread hreadable) (not_lt.mpr (Int.natCast_nonneg _))
  · intro hfits size hpos hsize
    have hb : m.resource = value := by
      rw [hcontents, hset.contents hfits.some, overwrite, window_zero, zero_add,
        drop_eq_nil_of_le hfits.covers, append_nil, nil_append]
    have hreadable : ForkReadable cfg volume m := by
      refine ⟨?_, hb ▸ hfits.some, fun _ => ?_, hfits.quantum⟩
      · rw [hm]
        exact hfits.owner
      · rw [hb]
        exact hvalue.trans_lt (by decide)
    have hback := (hget size hpos ((min_le_right _ _).trans (by rw [hb]; omega))).1 hreadable
    rw [hback, hb, min_eq_right hsize, take_of_length_le hsize]

/-- A FinderInfo that was set reads back exactly if it is not all zeros. -/
theorem finderinfo_reads_back_iff
    (hcache : cache.Correct server.tree) (hpath : path.head? = some slash)
    (hset : FinderinfoSet server.tree cache volume host path value o c) :
    (∀ size, 0 < size → value.length ≤ size →
      (((server.willing.calls cfg path converted).mlGetfinderinfo volume host path true
        size).run c).1 = ((value.length : ℤ), value)) ↔ value ≠ replicate 32 0 := by
  obtain ⟨did, basename, hspecial, ho⟩ := hset.object
  have hkept : (c.server.store o.fileid).finderinfo = value := hset.holds.2
  have hget : ∀ size, 32 ≤ size →
      (((server.willing.calls cfg path converted).mlGetfinderinfo volume host path true
        size).run c).1 = if value = replicate 32 0 then (-enoattr, []) else (32, value) := by
    intro size hsize
    have hlen : (c.server.store o.fileid).finderinfo.length = 32 := by rw [hkept, hset.length]
    rw [← hkept]
    exact get_finderinfo hcache hpath hspecial ho hlen hsize c ⟨hset.holds.1, rfl⟩
  constructor
  · intro h hzero
    have hback := h 32 (by decide) hset.length.le
    rw [hget 32 le_rfl, if_pos hzero] at hback
    have hneg : -enoattr = (value.length : ℤ) := congrArg Prod.fst hback
    rw [hset.length] at hneg
    exact absurd hneg (by decide)
  · intro hsome size _ hsize
    rw [hget size (hset.length ▸ hsize), if_neg hsome, hset.length]
    rfl

end ReadBack

/-- **An attribute that was set reads back**, whatever the server refused and
however it took the writes, exactly if the name is neither of the two with
rules of their own, or the value keeps to these. -/
theorem attribute_reads_back_iff (server : AttributeServer) (cache : Volume)
    (hcache : cache.Correct server.tree) (state : AttributeState) (cfg : MidlevelConfig)
    (volume : MetadataVolume) (host : ByteOrder) (path : Octets) (hpath : path.head? = some slash)
    (hroot : path ≠ rootPath) (hsupports : volume.attributes &&& kSupportsExtAttrs ≠ 0)
    (name : Octets) (hname : isInternalServerXattr name = false) (value : Octets)
    (hvalue : value.length ≤ afpExtattrDataMax) (flags : ℕ)
    (hset : (((callsFor server.serve (cfg.on volume host) path).mlSetxattr volume host path name
      value flags).run (.fresh cache state)).1 = 0) :
    (∀ size, 0 < size → value.length ≤ size →
      (((callsFor server.willing.serve (cfg.on volume host) path).mlGetxattr volume host path name
        true size).run (((callsFor server.serve (cfg.on volume host) path).mlSetxattr volume host
          path name value flags).run (.fresh cache state)).2).1 = ((value.length : ℤ), value)) ↔
      ReadsBack server.tree cache cfg volume host path name value state.store := by
  have hstart : StoreHas server.tree (fun store' => store' = state.store)
      (Client.fresh cache state) := ⟨hcache, rfl⟩
  unfold callsFor at hset ⊢
  generalize (cfg.on volume host).converted path = converted at hset ⊢
  cases hresource : isResourceforkXattr name with
  | true =>
    obtain ⟨o, b, hdone⟩ := set_resource hcache hpath hvalue hresource _ hstart hset
    generalize ((server.calls (cfg.on volume host) path converted).mlSetxattr volume
      host path name value flags).run (.fresh cache state) = after at hdone ⊢
    have hget : ∀ size, (server.willing.calls (cfg.on volume host) path
        converted).mlGetxattr volume host path name true size =
          (server.willing.calls (cfg.on volume host) path converted).mlGetresourcefork
            volume host path true size 0 := fun size => if_pos hresource
    simp only [hget]
    rw [resource_reads_back_iff hcache hpath hvalue hdone]
    obtain ⟨did, basename, hspecial, ho⟩ := hdone.object
    constructor
    · refine fun hfits => ⟨fun _ did' basename' o' hspecial' ho' => ?_, fun hfinder => ?_⟩
      · obtain ⟨rfl, rfl⟩ := Prod.mk.inj (Option.some.inj (hspecial'.symm.trans hspecial))
        obtain rfl := Option.some.inj (ho'.symm.trans ho)
        exact hfits
      · rw [not_isFinderinfoXattr hresource] at hfinder
        cases hfinder
    · exact fun h => h.resource hresource did basename o hspecial ho
  | false =>
    have hnot : isResourceforkXattr name = true → False := fun h => by
      rw [hresource] at h
      cases h
    cases hfinder : isFinderinfoXattr name with
    | true =>
      obtain ⟨o, hdone⟩ := set_finderinfo hcache hpath hresource hfinder _ hstart hset
      generalize ((server.calls (cfg.on volume host) path converted).mlSetxattr volume
        host path name value flags).run (.fresh cache state) = after at hdone ⊢
      have hget : ∀ size, (server.willing.calls (cfg.on volume host) path
          converted).mlGetxattr volume host path name true size =
            (server.willing.calls (cfg.on volume host) path converted).mlGetfinderinfo
              volume host path true size := by
        intro size
        rw [mlGetxattr, hresource, hfinder, if_neg nofun, if_pos rfl]
      simp only [hget]
      rw [finderinfo_reads_back_iff hcache hpath hdone]
      exact ⟨fun h => ⟨fun h' => (hnot h').elim, fun _ => h⟩, fun h => h.finderinfo hfinder⟩
    | false =>
      obtain ⟨o, ⟨did, basename, hfound, ho⟩, afpName, hafp, hdone⟩ :=
        set_extattr hcache hpath hroot hsupports hname hresource hfinder _ hstart hset
      refine iff_of_true (fun size hpos hsize => ?_) ⟨fun h => (hnot h).elim, fun h => ?_⟩
      · exact get_extattr hcache hpath hroot hsupports hname hresource hfinder hfound ho hafp hvalue
          hpos hsize _ hdone
      · rw [hfinder] at h
        cases h

/-- A server with the file `/f`, which refuses nothing and takes all of a
write. -/
def oneFileServer : AttributeServer := ⟨oneFile, fun _ => 0, fun _ => false, fun _ => 4096⟩

/-- The resource fork of every object has these contents, and nothing else is
kept. -/
def resourceOnly (resource : Octets) : AttributeState :=
  ⟨fun _ => ⟨[], resource, fun _ => none, (0, 0), none⟩, fun _ => none, 0⟩

/-- A value as long as the resource fork that was there reads back. -/
theorem covering_value_reads_back :
    (((callsFor oneFileServer.willing.serve (plainConfig.on attributeVolume .little)
      (text "/f")).mlGetxattr attributeVolume .little (text "/f") (text "com.apple.ResourceFork")
        true 8).run (((callsFor oneFileServer.serve (plainConfig.on attributeVolume .little)
          (text "/f")).mlSetxattr attributeVolume .little (text "/f")
            (text "com.apple.ResourceFork") (text "new") 0).run
              (.fresh mounted (resourceOnly (text "old")))).2).1 = (3, text "new") := by
  refine (attribute_reads_back_iff oneFileServer mounted nofun (resourceOnly (text "old"))
    plainConfig attributeVolume .little (text "/f") rfl (by decide) (by decide)
    (text "com.apple.ResourceFork") (by decide) (text "new") (by decide) 0
    (by decide +kernel)).mpr ⟨fun _ did basename o _ _ => ?_, fun h => ?_⟩ 8 (by decide) (by decide)
  · exact ⟨by decide, (by decide : 3 ≤ 3), by decide, nofun⟩
  · exact absurd h (by decide)

/-- A value that is shorter than the resource fork: the rest of the fork comes
back behind it. -/
theorem shorter_value_keeps_tail :
    (((callsFor oneFileServer.serve (plainConfig.on attributeVolume .little)
      (text "/f")).mlSetxattr attributeVolume .little (text "/f") (text "com.apple.ResourceFork")
        (text "x") 0).run (.fresh mounted (resourceOnly (text "old")))).1 = 0 ∧
      (((callsFor oneFileServer.willing.serve (plainConfig.on attributeVolume .little)
        (text "/f")).mlGetxattr attributeVolume .little (text "/f") (text "com.apple.ResourceFork")
          true 8).run (((callsFor oneFileServer.serve (plainConfig.on attributeVolume .little)
            (text "/f")).mlSetxattr attributeVolume .little (text "/f")
              (text "com.apple.ResourceFork") (text "x") 0).run
                (.fresh mounted (resourceOnly (text "old")))).2).1 = (3, text "xld") := by
  decide +kernel

end NetatalkClient
