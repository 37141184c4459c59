import GameArchive.Codec.Compression
import GameArchive.Reading

/-!
# Codecs that invert

The packers and decoders of entries are exchangeable.  What an archive needs of them is that the
decoder delivers what was packed and ends there; `Compression.Inverts` says so.  A reader of an
entry then gets the contents back, whatever stands behind the packed bytes.
-/

namespace GameArchive

/-- A delivery of everything gives a reader that knows the size exactly that. -/
theorem Delivery.takeExactly_of_all? {delivery : Delivery} {contents : Bytes}
    (everything : delivery.all? = some contents) (archive : String) (entry : Option String) :
    delivery.takeExactly archive entry contents.length = .ok contents := by
  unfold all? at everything
  cases ending : delivery.ending with
  | finished =>
      rw [ending] at everything
      cases everything
      have taken : delivery.take? delivery.bytes.length = some delivery.bytes := by
        rw [take?, reach, ending]
        simp
      rw [takeExactly, taken]
      simp
  | cutOff =>
      rw [ending] at everything
      cases everything
  | rejected =>
      rw [ending] at everything
      cases everything
  | broken early =>
      rw [ending] at everything
      cases everything

namespace Compression

variable [Codecs]

/-- Whether the decoder delivers what was packed. -/
def Inverts (compression : Compression) : Prop :=
  ∀ contents, ∃ delivery,
    compression.deliver (compression.pack contents) (compression.pack contents).length
        contents.length = .ok delivery ∧
      delivery.all? = some contents

theorem stored_inverts : stored.Inverts := by
  intro contents
  refine ⟨.ready contents, ?_, rfl⟩
  rw [deliver, pack, List.take_length]

/-- A raw block that is trusted with its size delivers what it decodes to. -/
theorem deliver_lz4Block {packed contents : Bytes}
    (trusted : contents.length ≤ blockLimit packed.length)
    (decoded : Codecs.lz4Block.decode? contents.length packed = some contents) :
    lz4Block.deliver packed packed.length contents.length = .ok (.ready contents) := by
  rw [deliver]
  simp only [List.take_length, if_neg (Nat.not_lt.mpr trusted), decoded]

/-- The decoder looks at the packed bytes only. -/
theorem deliver_append (compression : Compression) (contents rest : Bytes) :
    compression.deliver (compression.pack contents ++ rest) (compression.pack contents).length
        contents.length =
      compression.deliver (compression.pack contents) (compression.pack contents).length
        contents.length := by
  cases compression <;> simp [deliver, pack]

/-- A reader of an entry gets the packed contents back. -/
theorem Inverts.read {compression : Compression} (inverts : compression.Inverts)
    (contents rest : Bytes) (archive : String) (entry : Option String) :
    ∃ delivery,
      compression.deliver (compression.pack contents ++ rest) (compression.pack contents).length
          contents.length = .ok delivery ∧
        delivery.takeExactly archive entry contents.length = .ok contents := by
  obtain ⟨delivery, delivered, everything⟩ := inverts contents
  refine ⟨delivery, ?_, Delivery.takeExactly_of_all? everything archive entry⟩
  rw [deliver_append, delivered]

end Compression
end GameArchive
