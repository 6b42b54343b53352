import BmutilProofs.Wire.Stream
import BmutilProofs.Wire.Inventory
import BmutilProofs.Wire.InventoryRun
import BmutilProofs.Wire.InventoryCodec
import BmutilProofs.Model
import BmutilProofs.Reference
import BmutilProofs.Identity.Private
import BmutilProofs.Identity.Search
import BmutilProofs.Identity.Deterministic
import BmutilProofs.Identity.Wif
import BmutilProofs.Identity.Public
import BmutilProofs.Cipher.Broadcast
import BmutilProofs.Cipher.Decrypted
import BmutilProofs.Cipher.Open
import BmutilProofs.Cipher.Create
