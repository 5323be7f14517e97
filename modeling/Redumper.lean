import Redumper.Sector
import Redumper.Scrambler
import Redumper.ChannelQ
import Redumper.Leadin
import Redumper.Loop
import Redumper.Frame
import Redumper.Store
import Redumper.Step
import Redumper.Dump
import Redumper.Refine
import Redumper.Counters
import Redumper.Coverage
import Redumper.Termination
import Redumper.Retries
import Redumper.Read
import Redumper.Overread
import Redumper.Asus
import Redumper.Psx
import Redumper.Streams
import Redumper.Modes
import Redumper.Entry
import Redumper.Subchannel
import Redumper.Image
import Redumper.Regex
import Redumper.RegexLanguage
import Redumper.PsxSerial
import Redumper.Helpers
