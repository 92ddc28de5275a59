import SearchAndIdna.Switches
import SearchAndIdna.CopyData
import SearchAndIdna.Argv
import SearchAndIdna.Forwarding
import SearchAndIdna.CommandTail
import SearchAndIdna.Delivery
import SearchAndIdna.Panel
import SearchAndIdna.ContextO
import SearchAndIdna.Punycode.RoundTrip
import SearchAndIdna.NameRoundTrip
import SearchAndIdna.PassedName
import SearchAndIdna.Rendering
import SearchAndIdna.SysButtons
import SearchAndIdna.WindowLife
